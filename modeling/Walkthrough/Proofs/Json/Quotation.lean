import Mathlib.Data.List.TakeWhile
import Walkthrough.Json.Token
import Walkthrough.Proofs.Number.Decimal

/-! Quotation in JSON text. Every quotation mark that is not escaped leads into a string or out of
one, and outside of strings there is neither a backslash nor a backtick. So a scanner that knows
these three characters only can follow any text that has tokens. Started on the wrong side it tells
that a part of a string which has tokens by itself quotes no backtick. -/
namespace Walkthrough.Json

open Text

/-- Where the next character of a text stands. -/
inductive Side where
  | outside
  | inside
  | slashed
  deriving DecidableEq, Repr

namespace Side

def step : Side → Char → Option Side
  | outside, c =>
    if c = '"' then some inside else if c = '\\' ∨ c = '\x60' then none else some outside
  | inside, c => some (if c = '"' then outside else if c = '\\' then slashed else inside)
  | slashed, _ => some inside

def run (side : Side) (cs : List Char) : Option Side := cs.foldlM step side

end Side

open Side

/-- Characters that may stand on either side and lead to none. -/
def Bare (c : Char) : Prop := c ≠ '"' ∧ c ≠ '\\' ∧ c ≠ '\x60'

instance (c : Char) : Decidable (Bare c) := inferInstanceAs (Decidable (_ ∧ _))

/-- What may follow a backslash: it leads back into the string, and quotes no backtick. -/
structure Escapes (sequence : List Char) : Prop where
  closed : run slashed sequence = some inside
  unticked : '\x60' ∉ sequence

/-- The characters of a string with its closing quotation mark, and the text that they spell. -/
inductive Spelled : List Char → List Char → Prop where
  | close : Spelled ['"'] []
  | plain {c : Char} {raw cs : List Char} (open_ : c ≠ '"') (literal : c ≠ '\\')
      (rest : Spelled raw cs) : Spelled (c :: raw) (c :: cs)
  | escape {c : Char} {sequence raw cs : List Char} (escapes : Escapes sequence)
      (rest : Spelled raw cs) : Spelled ('\\' :: sequence ++ raw) (c :: cs)

/-- The text that a token stands for. -/
def Token.text? : Token → Option String
  | .text s | .scalar (.text s) => some s
  | _ => none

/-- The tokens of one character. -/
def marks : List (Token × Char) :=
  [(.openList, '['), (.closeList, ']'), (.openMap, '\x7b'), (.closeMap, '\x7d'), (.comma, ','),
    (.colon, ':')]

/-- Characters of numbers and of the names of values. -/
def Plain (c : Char) : Prop := c ∈ "+-.0123456789EINaefilnrstuy".toList

instance (c : Char) : Decidable (Plain c) := inferInstanceAs (Decidable (_ ∈ _))

inductive Written : Token → List Char → Prop where
  | text {raw cs : List Char} (spelled : Spelled raw cs) :
      Written (.text (String.ofList cs)) ('"' :: raw)
  | mark {t : Token} {c : Char} (listed : (t, c) ∈ marks) : Written t [c]
  | scalar {s : Scalar} {raw : List Char} (untold : (Token.scalar s).text? = none)
      (plain : ∀ c ∈ raw, Plain c) : Written (.scalar s) raw

/-- Tokens and the spaces between them, up to the end of the text. -/
inductive Lexes : List Char → List Token → Prop where
  | nil {gap : List Char} (space : ∀ c ∈ gap, isSpace c = true) : Lexes gap []
  | cons {gap raw tail : List Char} {t : Token} {ts : List Token}
      (space : ∀ c ∈ gap, isSpace c = true) (written : Written t raw) (rest : Lexes tail ts) :
      Lexes (gap ++ raw ++ tail) (t :: ts)

/-- What is left of a text behind some plain characters. -/
def Skips (cs rest : List Char) : Prop := ∃ raw, cs = raw ++ rest ∧ ∀ c ∈ raw, Plain c

variable {c e : Char} {cs raw rest tail out gap word before : List Char} {t : Token}
  {ts : List Token} {side : Side}

/-! ## The scanner -/

theorem run_append (side : Side) (cs rest : List Char) :
    run side (cs ++ rest) = (run side cs).bind fun s => run s rest :=
  List.foldlM_append

theorem run_cons (side : Side) (c : Char) (cs : List Char) :
    run side (c :: cs) = (step side c).bind fun s => run s cs :=
  List.foldlM_cons

theorem run_of_bare (side : Side) (unescaped : side ≠ slashed) (bare : ∀ c ∈ cs, Bare c) :
    run side cs = some side := by
  induction cs with
  | nil => rfl
  | cons c cs ih =>
    obtain ⟨⟨quote, slash, tick⟩, others⟩ := List.forall_mem_cons.mp bare
    have stays : step side c = some side := by
      cases side with
      | outside => simp [step, quote, slash, tick]
      | inside => simp [step, quote, slash]
      | slashed => exact absurd rfl unescaped
    rw [run_cons, stays, Option.bind_some, ih others]

theorem unticked_of_bare (bare : ∀ c ∈ cs, Bare c) : '\x60' ∉ cs :=
  fun inside => (bare _ inside).2.2 rfl

/-- A backtick that the scanner gets past is in a string. -/
theorem run_tick {s : Side} (passes : run side (before ++ ['\x60']) = some s) : s = inside := by
  rw [run_append, Option.bind_eq_some_iff] at passes
  obtain ⟨here, -, last⟩ := passes
  cases here with
  | outside => cases last
  | inside | slashed => exact (Option.some.inj last).symm

/-! ## Strings -/

theorem Spelled.run (spelled : Spelled raw cs) : run inside raw = some outside := by
  induction spelled with
  | close => rfl
  | @plain c raw cs open_ literal rest ih =>
    have stays : step inside c = some inside := by simp [step, open_, literal]
    rw [run_cons, stays, Option.bind_some, ih]
  | @escape c sequence raw cs escapes rest ih =>
    have opens : step inside '\\' = some slashed := rfl
    rw [List.cons_append, run_cons, opens, Option.bind_some, run_append, escapes.closed,
      Option.bind_some, ih]

theorem Spelled.mem_tick (spelled : Spelled raw cs) (tick : '\x60' ∈ raw) : '\x60' ∈ cs := by
  induction spelled with
  | close => simp at tick
  | plain open_ literal rest ih =>
    rcases List.mem_cons.mp tick with rfl | later
    · exact List.mem_cons_self ..
    · exact List.mem_cons_of_mem _ (ih later)
  | escape escapes rest ih =>
    rw [List.cons_append, List.mem_cons, List.mem_append] at tick
    rcases tick with slash | here | later
    · exact absurd slash (by decide)
    · exact absurd here escapes.unticked
    · exact List.mem_cons_of_mem _ (ih later)

/-- From the wrong side a string has no escapes, since the scanner takes it for the outside. -/
theorem Spelled.inverted {s : Side} (spelled : Spelled raw cs)
    (passes : Side.run outside raw = some s) : s = inside ∧ '\x60' ∉ cs := by
  induction spelled with
  | close => exact ⟨(Option.some.inj passes).symm, by simp⟩
  | @plain c raw cs open_ literal rest ih =>
    rw [run_cons] at passes
    by_cases tick : c = '\x60'
    · subst tick
      cases passes
    · have stays : step outside c = some outside := by simp [step, open_, literal, tick]
      rw [stays, Option.bind_some] at passes
      obtain ⟨same, unticked⟩ := ih passes
      exact ⟨same, by simp [unticked, Ne.symm tick]⟩
  | escape => cases passes

/-! ## What the reader takes for a token -/

theorem bare_of_hexNumber? {n : Nat} (reads : hexNumber? cs = some n) : ∀ c ∈ cs, Bare c := by
  have digit {c : Char} {d : Nat} (value : hexValue? c = some d) : Bare c := by
    refine ⟨?_, ?_, ?_⟩ <;> rintro rfl <;> cases value
  rw [hexNumber?] at reads
  generalize 0 = m at reads
  induction cs generalizing m with
  | nil => simp
  | cons c cs ih =>
    rw [List.foldlM_cons] at reads
    obtain ⟨next, first, others⟩ := Option.bind_eq_some_iff.mp reads
    obtain ⟨d, value, -⟩ := Option.map_eq_some_iff.mp first
    exact List.forall_mem_cons.mpr ⟨digit value, ih next others⟩

theorem bare_of_isSpace (space : isSpace c = true) : Bare c := by
  refine ⟨?_, ?_, ?_⟩ <;> rintro rfl <;> cases space

theorem bare_of_spaces (space : ∀ c ∈ gap, isSpace c = true) : ∀ c ∈ gap, Bare c :=
  fun c inside => bare_of_isSpace (space c inside)

theorem Plain.bare (plain : Plain c) : Bare c := by
  refine ⟨?_, ?_, ?_⟩ <;> rintro rfl <;> revert plain <;> decide

theorem plain_of_isDigit (digit : isDigit c = true) : Plain c := by
  have all : (Numeral.asciiDigits.all fun c => decide (Plain c)) = true := by decide
  have figure : c ∈ Numeral.asciiDigits := Numeral.mem_asciiDigits <| by
    simpa [isDigit, Char.isDigit, Char.le_def, UInt32.le_iff_toNat_le] using digit
  simpa using List.all_eq_true.mp all c figure

/-- Only strings quote anything. -/
theorem Written.text_or_bare (written : Written t raw) :
    (∃ inner cs, t = .text (String.ofList cs) ∧ raw = '"' :: inner ∧ Spelled inner cs) ∨
      t.text? = none ∧ ∀ c ∈ raw, Bare c := by
  cases written with
  | text spelled => exact .inl ⟨_, _, rfl, rfl, spelled⟩
  | mark listed =>
    have all : ∀ mark ∈ marks, mark.1.text? = none ∧ Bare mark.2 := by decide
    exact .inr ((all _ listed).imp_right List.forall_mem_singleton.mpr)
  | scalar untold plain => exact .inr ⟨untold, fun c inside => (plain c inside).bare⟩

theorem escapes_simple (simple : simpleEscape? c = some e) : Escapes [c] := by
  refine ⟨rfl, ?_⟩
  rw [List.mem_singleton]
  rintro rfl
  cases simple

theorem escapes_unit {n : Nat} (reads : hexNumber? cs = some n) : Escapes ('u' :: cs) := by
  have digits := bare_of_hexNumber? reads
  refine ⟨?_, List.not_mem_cons_of_ne_of_not_mem (by decide) (unticked_of_bare digits)⟩
  exact run_of_bare inside nofun digits

theorem Escapes.append (first : Escapes cs) (second : Escapes rest) :
    Escapes (cs ++ '\\' :: rest) := by
  have opens : step inside '\\' = some slashed := rfl
  constructor
  · rw [run_append, first.closed, Option.bind_some, run_cons, opens, Option.bind_some,
      second.closed]
  · rw [List.mem_append, List.mem_cons]
    simp [first.unticked, second.unticked]

theorem spelled_of_string? (reads : string? cs = some (out, rest)) :
    ∃ raw, cs = raw ++ rest ∧ Spelled raw out := by
  fun_induction string? cs generalizing out rest with
  | case1 => cases reads
  | case2 tail =>
    cases reads
    exact ⟨['"'], rfl, .close⟩
  | case3 a b c d e f g h more ih ih' =>
    simp only [Option.bind_eq_bind, Option.bind_eq_some_iff] at reads
    obtain ⟨high, first, reads⟩ := reads
    split at reads
    · split at reads
      · rename_i low second
        split at reads
        · simp only [Option.bind_eq_some_iff] at reads
          obtain ⟨⟨cs, tail⟩, others, same⟩ := reads
          cases same
          obtain ⟨raw, rfl, spelled⟩ := ih others
          exact ⟨_, rfl, .escape ((escapes_unit first).append (escapes_unit second)) spelled⟩
        · simp only [Option.bind_eq_some_iff] at reads
          obtain ⟨⟨cs, tail⟩, others, same⟩ := reads
          cases same
          obtain ⟨raw, behind, spelled⟩ := ih' others
          rw [behind]
          exact ⟨_, rfl, .escape (escapes_unit first) spelled⟩
      · cases reads
    · simp only [Option.bind_eq_some_iff] at reads
      obtain ⟨⟨cs, tail⟩, others, same⟩ := reads
      cases same
      obtain ⟨raw, behind, spelled⟩ := ih' others
      rw [behind]
      exact ⟨_, rfl, .escape (escapes_unit first) spelled⟩
  | case4 a b c d more _ ih =>
    simp only [Option.bind_eq_bind, Option.bind_eq_some_iff] at reads
    obtain ⟨n, unit, ⟨cs, tail⟩, others, same⟩ := reads
    cases same
    obtain ⟨raw, rfl, spelled⟩ := ih others
    exact ⟨_, rfl, .escape (escapes_unit unit) spelled⟩
  | case5 c more _ _ ih =>
    simp only [Option.bind_eq_bind, Option.bind_eq_some_iff] at reads
    obtain ⟨d, simple, ⟨cs, tail⟩, others, same⟩ := reads
    cases same
    obtain ⟨raw, rfl, spelled⟩ := ih others
    exact ⟨_, rfl, .escape (escapes_simple simple) spelled⟩
  | case6 => cases reads
  | case7 c more open_ _ _ _ ok ih =>
    simp only [Option.bind_eq_bind, Option.bind_eq_some_iff] at reads
    obtain ⟨⟨cs, tail⟩, others, same⟩ := reads
    cases same
    obtain ⟨raw, rfl, spelled⟩ := ih others
    refine ⟨c :: raw, rfl, .plain open_ ?_ spelled⟩
    rintro rfl
    simp at ok

theorem Skips.refl (cs : List Char) : Skips cs cs := ⟨[], rfl, by simp⟩

theorem Skips.cons (plain : Plain c) (skips : Skips cs rest) : Skips (c :: cs) rest := by
  obtain ⟨raw, rfl, others⟩ := skips
  exact ⟨c :: raw, rfl, List.forall_mem_cons.mpr ⟨plain, others⟩⟩

theorem Skips.trans (first : Skips cs rest) (second : Skips rest tail) : Skips cs tail := by
  obtain ⟨raw, rfl, plain⟩ := first
  obtain ⟨raw', rfl, plain'⟩ := second
  exact ⟨raw ++ raw', (List.append_assoc ..).symm, List.forall_mem_append.mpr ⟨plain, plain'⟩⟩

theorem skips_digits (cs : List Char) : Skips cs (cs.dropWhile isDigit) :=
  ⟨cs.takeWhile isDigit, List.takeWhile_append_dropWhile.symm,
    fun _ inside => plain_of_isDigit (List.mem_takeWhile_imp inside)⟩

theorem skips_fraction (cs : List Char) : Skips cs ((fractionDigits cs).getD ([], cs)).2 := by
  fun_cases fractionDigits cs with
  | case1 | case3 => exact .refl _
  | case2 rest => exact (skips_digits rest).cons (by decide)

theorem skips_exponent (cs : List Char) : Skips cs ((exponentDigits cs).getD ([], cs)).2 := by
  fun_cases exponentDigits cs with
  | case1 | case3 | case4 => exact .refl _
  | case2 c cs letter sign body split_ =>
    have plain : Plain c := by
      rcases (by simpa using letter : c = 'e' ∨ c = 'E') with rfl | rfl <;> decide
    refine .cons plain (.trans ?_ (skips_digits body))
    split at split_ <;> cases split_
    · exact .cons (by decide) (.refl _)
    · exact .cons (by decide) (.refl _)
    · exact .refl _

theorem skips_of_prefix (front : word <+: cs) (plain : ∀ c ∈ word, Plain c) :
    Skips cs (cs.drop word.length) := by
  obtain ⟨rest, rfl⟩ := front
  exact ⟨word, by rw [List.drop_left], plain⟩

theorem skips_whole (body : List Char) :
    Skips body (body.drop (match body with
      | '0' :: _ => ['0']
      | _ => body.takeWhile isDigit).length) := by
  split
  · have zero : ∀ c ∈ ['0'], Plain c := List.forall_mem_singleton.mpr (by decide)
    exact skips_of_prefix (List.prefix_append ['0'] _) zero
  · exact skips_of_prefix (List.takeWhile_prefix _)
      fun _ inside => plain_of_isDigit (List.mem_takeWhile_imp inside)

theorem skips_of_number? {n : Number} (reads : number? cs = some (n, rest)) : Skips cs rest := by
  fun_cases number? cs with
  | case1 negative body front whole none_ =>
    unfold number? at reads
    rw [front] at reads
    dsimp only at reads
    rw [if_pos none_] at reads
    cases reads
  | case2 negative body front whole some_ more fraction behind fractional power behind' powered =>
    unfold number? at reads
    rw [front] at reads
    dsimp only at reads
    rw [if_neg some_, fractional] at reads
    dsimp only at reads
    rw [powered] at reads
    obtain ⟨m, -, same⟩ := Option.map_eq_some_iff.mp reads
    cases same
    have signed : Skips cs body := by
      split at front <;> cases front
      · exact .cons (by decide) (.refl _)
      · exact .refl _
    have digits : Skips body more := skips_whole body
    have first := skips_fraction more
    have second := skips_exponent behind
    rw [fractional] at first
    rw [powered] at second
    exact signed.trans (digits.trans (first.trans second))

theorem eq_of_after? (reads : after? word cs = some rest) : cs = word ++ rest := by
  rw [after?] at reads
  split at reads
  · rename_i front
    cases reads
    have whole := List.take_append_drop word.length cs
    rw [front] at whole
    exact whole.symm
  · cases reads

theorem skips_of_names {s : Scalar} (reads : names.findSome? (fun (name, s) =>
    (after? name.toList cs).map (s, ·)) = some (s, rest)) :
    Skips cs rest ∧ (Token.scalar s).text? = none := by
  obtain ⟨⟨name, s⟩, listed, found⟩ := List.exists_of_findSome?_eq_some reads
  obtain ⟨more, behind, same⟩ := Option.map_eq_some_iff.mp found
  cases same
  have all : (names.all fun entry => entry.1.toList.all (fun c => decide (Plain c)) &&
      (Token.scalar entry.2).text?.isNone) = true := by decide
  obtain ⟨plain, untold⟩ := (Bool.and_eq_true _ _).mp (List.all_eq_true.mp all _ listed)
  refine ⟨⟨name.toList, eq_of_after? behind, ?_⟩, Option.isNone_iff_eq_none.mp untold⟩
  simpa using plain

theorem Skips.written {s : Scalar} (skips : Skips cs rest) (untold : (Token.scalar s).text? = none) :
    ∃ raw, cs = raw ++ rest ∧ Written (.scalar s) raw := by
  obtain ⟨raw, whole, plain⟩ := skips
  exact ⟨raw, whole, .scalar untold plain⟩

theorem written_of_token? (reads : token? cs = some (t, rest)) :
    ∃ raw, cs = raw ++ rest ∧ Written t raw := by
  unfold token? at reads
  split at reads
  case h_1 => cases reads
  case h_2 | h_3 | h_4 | h_5 | h_6 | h_7 =>
    cases reads
    exact ⟨[_], rfl, .mark (by decide)⟩
  case h_8 more =>
    obtain ⟨⟨out, tail⟩, string, same⟩ := Option.map_eq_some_iff.mp reads
    cases same
    obtain ⟨raw, rfl, spelled⟩ := spelled_of_string? string
    exact ⟨'"' :: raw, rfl, .text spelled⟩
  case h_9 =>
    split at reads
    · rename_i named
      cases reads
      obtain ⟨skips, untold⟩ := skips_of_names named
      exact skips.written untold
    · split at reads
      · cases reads
      · obtain ⟨⟨n, more⟩, number, same⟩ := Option.map_eq_some_iff.mp reads
        cases same
        exact (skips_of_number? number).written rfl

theorem lexes_of_tokensWithin {fuel : Nat} (reads : tokensWithin fuel cs = some ts) :
    Lexes cs ts := by
  induction fuel generalizing cs ts with
  | zero =>
    rw [tokensWithin] at reads
    split at reads
    · rename_i empty
      cases reads
      exact .nil (by simp [List.isEmpty_iff.mp empty])
    · cases reads
  | succ fuel ih =>
    have whole : cs = cs.takeWhile isSpace ++ cs.dropWhile isSpace :=
      List.takeWhile_append_dropWhile.symm
    have space : ∀ c ∈ cs.takeWhile isSpace, isSpace c = true :=
      fun _ inside => List.mem_takeWhile_imp inside
    rw [tokensWithin] at reads
    split at reads
    · rename_i none_
      cases reads
      rw [none_, List.append_nil] at whole
      exact .nil (whole ▸ space)
    · simp only [Option.bind_eq_bind, Option.bind_eq_some_iff] at reads
      obtain ⟨⟨t, tail⟩, first, ts, others, same⟩ := reads
      cases same
      obtain ⟨raw, front, written⟩ := written_of_token? first
      rw [whole, front, ← List.append_assoc]
      exact .cons space written (ih others)

theorem lexes_of_tokens? (reads : tokens? cs = some ts) : Lexes cs ts := lexes_of_tokensWithin reads

/-! ## Texts that have tokens -/

theorem Lexes.run (lexes : Lexes cs ts) : run outside cs = some outside := by
  induction lexes with
  | nil space => exact run_of_bare outside nofun (bare_of_spaces space)
  | cons space written rest ih =>
    rw [run_append, run_append, run_of_bare outside nofun (bare_of_spaces space), Option.bind_some]
    obtain ⟨inner, cs, rfl, rfl, spelled⟩ | ⟨-, bare⟩ := written.text_or_bare
    · have opens : step outside '"' = some inside := rfl
      rw [run_cons, opens, Option.bind_some, spelled.run, Option.bind_some, ih]
    · rw [run_of_bare outside nofun bare, Option.bind_some, ih]

/-- A backtick that occurs at all is quoted. -/
theorem Lexes.exists_text (lexes : Lexes cs ts) (tick : '\x60' ∈ cs) :
    ∃ t ∈ ts, ∃ s, t.text? = some s ∧ '\x60' ∈ s.toList := by
  induction lexes with
  | nil space => exact absurd tick (unticked_of_bare (bare_of_spaces space))
  | cons space written rest ih =>
    rw [List.mem_append, List.mem_append] at tick
    obtain (blank | here) | later := tick
    · exact absurd blank (unticked_of_bare (bare_of_spaces space))
    · obtain ⟨inner, cs, rfl, rfl, spelled⟩ | ⟨-, bare⟩ := written.text_or_bare
      · have quoted := (List.mem_cons.mp here).resolve_left (by decide)
        refine ⟨_, List.mem_cons_self .., _, rfl, ?_⟩
        rw [String.toList_ofList]
        exact spelled.mem_tick quoted
      · exact absurd here (unticked_of_bare bare)
    · obtain ⟨t, told, quotes⟩ := ih later
      exact ⟨t, List.mem_cons_of_mem _ told, quotes⟩

/-- In a part of a string nothing that looks like a string quotes a backtick. -/
theorem Lexes.unticked {side : Side} (lexes : Lexes cs ts)
    (passes : Side.run inside cs = some side) :
    ∀ t ∈ ts, ∀ s, t.text? = some s → '\x60' ∉ s.toList := by
  induction lexes with
  | nil => simp
  | @cons gap raw tail t ts space written rest ih =>
    rw [run_append, run_append, run_of_bare inside nofun (bare_of_spaces space), Option.bind_some,
      Option.bind_eq_some_iff] at passes
    obtain ⟨behind, here, later⟩ := passes
    obtain ⟨inner, cs, rfl, rfl, spelled⟩ | ⟨untold, bare⟩ := written.text_or_bare
    · have closes : step inside '"' = some outside := rfl
      rw [run_cons, closes, Option.bind_some] at here
      obtain ⟨rfl, unticked⟩ := spelled.inverted here
      refine List.forall_mem_cons.mpr ⟨fun s told => ?_, ih later⟩
      cases told
      rwa [String.toList_ofList]
    · rw [run_of_bare inside nofun bare] at here
      cases here
      refine List.forall_mem_cons.mpr ⟨fun s told => ?_, ih later⟩
      cases untold.symm.trans told

end Walkthrough.Json
