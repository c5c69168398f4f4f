import Walkthrough.Proofs.Expression.Spacing

/-! Tokens tile their text. A text has tokens unless a string is opened that nothing closes; then its
tokens stand in order, with nothing but white space between them, each spelled as its kind is
spelled, and each reaching as far as it can. -/
namespace Walkthrough.Expression

/-- A token at its place: what it is, its value, where it begins and where it has ended. -/
structure Spot where
  kind : Kind
  value : List Char
  start : Nat
  stop : Nat

def Spot.entry (s : Spot) : String × List Char × Nat × Nat :=
  (s.kind.name, s.value, s.start, s.stop)

/-- The text shows white space, a quote, an operator or a bracket there, or one of the two pairs that
begin like words. -/
def Breaks (cs : List Char) (i : Nat) : Prop :=
  ∃ c, cs[i]? = some c ∧
    (Text.isBlank c = true ∨ isQuote c = true ∨ (singleKind? c).isSome = true ∨
      (c = '-' ∧ cs[i + 1]? = some '>') ∨ (c = '$' ∧ cs[i + 1]? = some '\x7b'))

/-- What the text shows at the place of a token. -/
inductive Shown (cs : List Char) : Spot → Prop where
  | string {value : List Char} {quote : Char} {start stop : Nat} (quoted : isQuote quote = true)
      (slice : cs.extract start stop = quote :: value ++ [quote])
      (escaped : ∀ front back, value = front ++ quote :: back → front.getLast? = some '\\') :
      Shown cs ⟨.string, value, start, stop⟩
  | word {value : List Char} {start stop : Nat} (slice : cs.extract start stop = value)
      (goes : ∀ i, start ≤ i → i < stop → ¬Breaks cs i)
      (ends : stop = cs.length ∨ Breaks cs stop) : Shown cs ⟨.word, value, start, stop⟩
  | pair {kind : Kind} {c d : Char} {start : Nat} (slice : cs.extract start (start + 2) = [c, d])
      (pair : pairKind? c (some d) = some kind) : Shown cs ⟨kind, [c, d], start, start + 2⟩
  | single {kind : Kind} {c : Char} {start : Nat} (slice : cs.extract start (start + 1) = [c])
      (single : singleKind? c = some kind) (alone : pairKind? c cs[start + 1]? = none) :
      Shown cs ⟨kind, [c], start, start + 1⟩

structure Tiles (cs : List Char) (spots : List Spot) : Prop where
  within : ∀ s ∈ spots, s.start < s.stop ∧ s.stop ≤ cs.length
  ordered : spots.Pairwise fun a b => a.stop ≤ b.start
  gaps : ∀ i c, cs[i]? = some c → (∀ s ∈ spots, i < s.start ∨ s.stop ≤ i) → Text.isBlank c = true
  shown : ∀ s ∈ spots, Shown cs s
  apart : ∀ a ∈ spots, ∀ b ∈ spots, a.kind = .word → b.kind = .word → a.stop ≠ b.start

/-- Behind whole tokens a quote stands there, and before every later one of its kind a backslash. -/
def OpensForever (cs : List Char) (position : Nat) : Prop :=
  ∃ front quote rest, cs = front ++ quote :: rest ∧ front.length = position ∧
    (∃ lexed, tokenize front = .ok lexed) ∧ isQuote quote = true ∧
    ∀ before behind, rest = before ++ quote :: behind → before.getLast? = some '\\'

section Quotes

variable {quote before : Char} {cs : List Char}

/-- No quote ends the string that begins before the characters. -/
def Unclosed (quote before : Char) (cs : List Char) : Prop :=
  ∀ front back, cs = front ++ quote :: back → (before :: front).getLast? = some '\\'

theorem unclosed_cons {c : Char} :
    Unclosed quote before (c :: cs) ↔ (c = quote → before = '\\') ∧ Unclosed quote c cs := by
  constructor
  · intro unclosed
    constructor
    · rintro rfl
      simpa using unclosed [] cs rfl
    · rintro front back rfl
      simpa using unclosed (c :: front) back rfl
  · rintro ⟨first, later⟩ front back text
    cases front with
    | nil =>
      cases text
      simp [first rfl]
    | cons d front =>
      cases text
      simpa using later front back rfl

theorem quotedLength?_cons_of_escaped {c : Char} (escaped : c = quote → before = '\\') :
    quotedLength? quote before (c :: cs) = (quotedLength? quote c cs).map (· + 1) := by
  have inside : ¬(c == quote && before != '\\') = true := by
    simpa using escaped
  rw [quotedLength?, if_neg inside]

theorem quotedLength?_cons_of_closed {c : Char} (here : c = quote) (plain : before ≠ '\\') :
    quotedLength? quote before (c :: cs) = some 1 := by
  simp [quotedLength?, here, plain]

theorem quotedLength?_eq_none_iff : quotedLength? quote before cs = none ↔ Unclosed quote before cs := by
  induction cs generalizing before with
  | nil =>
    refine iff_of_true rfl fun front back text => ?_
    cases front <;> cases text
  | cons c cs ih =>
    rw [unclosed_cons]
    by_cases escaped : c = quote → before = '\\'
    · rw [quotedLength?_cons_of_escaped escaped, Option.map_eq_none_iff, ih]
      exact (and_iff_right escaped).symm
    · obtain ⟨here, plain⟩ := Classical.not_imp.mp escaped
      rw [quotedLength?_cons_of_closed here plain]
      exact iff_of_false nofun fun both => escaped both.1

theorem exists_value {n : Nat} (closed : quotedLength? quote before cs = some n) :
    ∃ value rest, cs = value ++ quote :: rest ∧ n = value.length + 1 ∧ Unclosed quote before value := by
  induction cs generalizing before n with
  | nil => cases closed
  | cons c cs ih =>
    by_cases escaped : c = quote → before = '\\'
    · rw [quotedLength?_cons_of_escaped escaped] at closed
      obtain ⟨m, later, rfl⟩ := Option.map_eq_some_iff.mp closed
      obtain ⟨value, rest, rfl, rfl, unclosed⟩ := ih later
      exact ⟨c :: value, rest, rfl, rfl, unclosed_cons.mpr ⟨escaped, unclosed⟩⟩
    · obtain ⟨rfl, plain⟩ := Classical.not_imp.mp escaped
      rw [quotedLength?_cons_of_closed rfl plain] at closed
      cases closed
      exact ⟨[], cs, rfl, rfl, fun front back text => by cases front <;> cases text⟩

/-- The quote that opens a string is no backslash, so it makes no difference whether it counts as
standing before the characters. -/
theorem unclosed_iff (quoted : isQuote quote = true) : Unclosed quote quote cs ↔
    ∀ front back, cs = front ++ quote :: back → front.getLast? = some '\\' := by
  have plain : quote ≠ '\\' := by
    rintro rfl
    cases quoted
  have same : ∀ front : List Char,
      (quote :: front).getLast? = some '\\' ↔ front.getLast? = some '\\' := by
    intro front
    cases front with
    | nil => simp [plain]
    | cons => simp
  simp only [Unclosed, same]

end Quotes

section Words

variable {front cs : List Char} {c : Char} {i : Nat}

theorem breaks_append : Breaks (front ++ cs) (front.length + i) ↔ Breaks cs i := by
  have index (j : Nat) : (front ++ cs)[front.length + j]? = cs[j]? := by
    rw [List.getElem?_append_right (Nat.le_add_right ..), Nat.add_sub_cancel_left]
  simp only [Breaks, Nat.add_assoc, index]

theorem breaks_zero : Breaks (c :: cs) 0 ↔ endsWord c cs.head? = true := by
  have pairs (unpaired : singleKind? c = none) : (pairKind? c cs.head?).isSome = true ↔
      (c = '-' ∧ cs.head? = some '>') ∨ (c = '$' ∧ cs.head? = some '\x7b') := by
    constructor
    · intro pair
      unfold pairKind? at pair
      split at pair <;> simp_all [singleKind?]
    · rintro (⟨rfl, next⟩ | ⟨rfl, next⟩) <;> rw [next] <;> rfl
  have next : (c :: cs)[0 + 1]? = cs.head? := by simp [List.head?_eq_getElem?]
  cases single : singleKind? c with
  | some kind => simp [Breaks, endsWord, single]
  | none =>
    simp only [Breaks, endsWord, next, Bool.or_eq_true, pairs single]
    simp [single, or_assoc]

theorem breaks_succ : Breaks (c :: cs) (i + 1) ↔ Breaks cs i := by
  simp [Breaks]

/-- A word reaches to where the text breaks first. -/
theorem wordLength_spec (cs : List Char) : (∀ i < wordLength cs, ¬Breaks cs i) ∧
    (wordLength cs = cs.length ∨ Breaks cs (wordLength cs)) := by
  induction cs with
  | nil => exact ⟨fun i below => absurd below (Nat.not_lt_zero i), .inl rfl⟩
  | cons c cs ih =>
    cases ends : endsWord c cs.head? with
    | true =>
      have none : wordLength (c :: cs) = 0 := by simp [wordLength, ends]
      rw [none]
      exact ⟨fun i below => absurd below (Nat.not_lt_zero i), .inr (breaks_zero.mpr ends)⟩
    | false =>
      rw [wordLength_cons_of_goes ends]
      refine ⟨fun i below breaks => ?_, ?_⟩
      · cases i with
        | zero => cases ends.symm.trans (breaks_zero.mp breaks)
        | succ i => exact ih.1 i (Nat.lt_of_succ_lt_succ below) (breaks_succ.mp breaks)
      · exact ih.2.imp (congrArg Nat.succ) breaks_succ.mpr

end Words

section Signs

variable {c : Char} {next : Option Char} {kind : Kind}

theorem sign_of_pair (pair : pairKind? c next = some kind) : kind ≠ .string ∧ kind ≠ .word := by
  unfold pairKind? at pair
  split at pair <;> cases pair <;> exact ⟨nofun, nofun⟩

theorem sign_of_single (single : singleKind? c = some kind) : kind ≠ .string ∧ kind ≠ .word := by
  unfold singleKind? at single
  split at single <;> cases single <;> exact ⟨nofun, nofun⟩

end Signs

theorem Shown.goes {cs value : List Char} {start stop : Nat}
    (shown : Shown cs ⟨.word, value, start, stop⟩) :
    (∀ i, start ≤ i → i < stop → ¬Breaks cs i) ∧ (stop = cs.length ∨ Breaks cs stop) := by
  cases shown with
  | word _ goes ends => exact ⟨goes, ends⟩
  | pair _ pair => exact absurd rfl (sign_of_pair pair).2
  | single _ single => exact absurd rfl (sign_of_single single).2

section Spots

variable {t : Token} {ts : List Token} {front rest tail : List Char} {position : Nat}

theorem extract_middle (front middle rest : List Char) :
    (front ++ (middle ++ rest)).extract front.length (front.length + middle.length) = middle := by
  simp [List.extract]

/-- A token that heads the rest of a text is shown there. -/
theorem Token.Heads.shown (heads : t.Heads rest) (front : List Char) :
    Shown (front ++ (t.lexeme ++ rest))
      ⟨t.kind, t.value, front.length, front.length + t.lexeme.length⟩ := by
  obtain ⟨kind, gap, lexeme⟩ := t
  obtain ⟨-, c, cs, rfl, solid, extent⟩ := heads
  have slice := extract_middle front (c :: cs) rest
  simp only [Token.value] at extent ⊢
  have reaches := extent?_eq_some.mp extent
  generalize length : cs.length = n at reaches
  generalize text : cs ++ rest = behind at reaches
  cases reaches with
  | string quote closed =>
    obtain ⟨value, rest', rfl, rfl, unclosed⟩ := exists_value closed
    -- both the lexeme and the value with its quote are the front of what is behind
    have same : cs = value ++ [c] := by
      have parts : cs ++ rest = (value ++ [c]) ++ rest' := by simp [text]
      exact (List.append_inj parts (by simp [length])).1
    subst same
    have inner : (c :: (value ++ [c])).tail.dropLast = value := by simp
    rw [inner, if_pos (by rfl)]
    exact .string quote slice ((unclosed_iff quote).mp unclosed)
  | pair plain pair =>
    subst text
    obtain ⟨d, rfl⟩ := List.length_eq_one_iff.mp length
    rw [if_neg (by simpa using (sign_of_pair pair).1)]
    exact .pair slice pair
  | single plain alone single =>
    cases List.eq_nil_of_length_eq_zero length
    rw [if_neg (by simpa using (sign_of_single single).1)]
    refine .single slice single ?_
    subst text
    rw [List.getElem?_append_right (Nat.le_add_right ..), Nat.add_sub_cancel_left]
    simpa [List.head?_eq_getElem?] using alone
  | word plain alone other =>
    have goes : endsWord c behind.head? = false := by
      simp [endsWord, solid, plain, other, alone]
    have whole : wordLength (c :: behind) = (c :: cs).length := by
      rw [wordLength_cons_of_goes goes, List.length_cons, length]
    obtain ⟨inside, ends⟩ := wordLength_spec (c :: behind)
    rw [whole] at inside ends
    subst text
    rw [if_neg (by simp)]
    refine .word slice (fun i above below => ?_) ?_
    · obtain ⟨j, rfl⟩ := Nat.exists_eq_add_of_le above
      rw [breaks_append]
      exact inside j (by omega)
    · rw [breaks_append]
      refine ends.imp_left fun last => ?_
      simp only [List.length_append, List.length_cons] at last ⊢
      omega

/-- The places of tokens that stand behind a number of characters. -/
def spots (position : Nat) : List Token → List Spot
  | [] => []
  | t :: ts =>
    let start := position + t.gap.length
    ⟨t.kind, t.value, start, start + t.lexeme.length⟩ :: spots (start + t.lexeme.length) ts

theorem placed_eq (lexed : Lexed) (position : Nat) (ts : List Token) :
    let stop := position + (textBehind ts ++ lexed.tail).length
    Lexed.placed.go lexed position ts =
      (spots position ts).map Spot.entry ++ [("EOF", [], stop, stop)] := by
  induction ts generalizing position with
  | nil => simp [Lexed.placed.go, spots]
  | cons t ts ih =>
    simp only [Lexed.placed.go, ih, spots, List.map_cons, List.cons_append, Spot.entry,
      textBehind_cons, List.length_append]
    simp only [Nat.add_assoc]

theorem spots_shown (legible : Legible ts tail) (front : List Char) :
    ∀ s ∈ spots front.length ts, Shown (front ++ (textBehind ts ++ tail)) s := by
  induction ts generalizing front with
  | nil => exact nofun
  | cons t ts ih =>
    have here := legible.1.shown (front ++ t.gap)
    have later := ih legible.2 (front ++ t.gap ++ t.lexeme)
    simp only [List.length_append, List.append_assoc] at here later
    simp only [spots, List.forall_mem_cons, textBehind_cons, List.append_assoc, Nat.add_assoc]
      at here ⊢
    exact ⟨here, later⟩

theorem spots_within (legible : Legible ts tail) (position : Nat) : ∀ s ∈ spots position ts,
    position ≤ s.start ∧ s.start < s.stop ∧ s.stop ≤ position + (textBehind ts).length := by
  induction ts generalizing position with
  | nil => exact nofun
  | cons t ts ih =>
    obtain ⟨c, cs, lexeme, -⟩ := legible.1.lexeme
    have filled : 0 < t.lexeme.length := by simp [lexeme]
    simp only [spots, List.forall_mem_cons, textBehind_cons, List.length_append]
    refine ⟨by omega, fun s inside => ?_⟩
    have := ih legible.2 _ s inside
    omega

theorem spots_ordered (legible : Legible ts tail) :
    (spots position ts).Pairwise fun a b => a.stop ≤ b.start := by
  induction ts generalizing position with
  | nil => exact .nil
  | cons t ts ih =>
    refine .cons (fun s inside => ?_) (ih legible.2)
    exact (spots_within legible.2 _ s inside).1

theorem spots_gaps (legible : Legible ts tail) (blank : Text.allBlank tail = true) (position i : Nat)
    (c : Char) (there : (textBehind ts ++ tail)[i]? = some c)
    (outside : ∀ s ∈ spots position ts, position + i < s.start ∨ s.stop ≤ position + i) :
    Text.isBlank c = true := by
  induction ts generalizing position i with
  | nil => exact List.all_eq_true.mp blank c (List.mem_of_getElem? there)
  | cons t ts ih =>
    simp only [spots, List.forall_mem_cons] at outside
    obtain ⟨here, later⟩ := outside
    rw [textBehind_cons, List.append_assoc, List.append_assoc] at there
    rcases here with before | behind
    · rw [List.getElem?_append_left (by omega)] at there
      exact List.all_eq_true.mp legible.1.gap c (List.mem_of_getElem? there)
    · obtain ⟨j, rfl⟩ : ∃ j, i = t.gap.length + (t.lexeme.length + j) :=
        ⟨i - t.gap.length - t.lexeme.length, by omega⟩
      rw [List.getElem?_append_right (by omega), List.getElem?_append_right (by omega)] at there
      rw [Nat.add_sub_cancel_left, Nat.add_sub_cancel_left] at there
      refine ih legible.2 (position + t.gap.length + t.lexeme.length) j there fun s inside => ?_
      have := later s inside
      omega

theorem tiles_spots (legible : Legible ts tail) (blank : Text.allBlank tail = true) :
    Tiles (textBehind ts ++ tail) (spots 0 ts) := by
  have within := spots_within legible 0
  have shown := spots_shown legible []
  refine ⟨fun s inside => ?_, spots_ordered legible, fun i c there outside => ?_, shown, ?_⟩
  · have := within s inside
    rw [List.length_append]
    omega
  · refine spots_gaps legible blank 0 i c there fun s inside => ?_
    rw [Nat.zero_add]
    exact outside s inside
  · intro a insideA b insideB wordA wordB touch
    have reach := within b insideB
    obtain ⟨kind, value, start, stop⟩ := a
    obtain ⟨kind', value', start', stop'⟩ := b
    cases wordA
    cases wordB
    cases touch
    -- the second word does not break off where the first has ended
    have goes := (shown _ insideB).goes.1 stop (Nat.le_refl _) reach.2.1
    rcases (shown _ insideA).goes.2 with last | breaks
    · simp only [List.nil_append, List.length_append] at last reach
      omega
    · exact goes breaks

end Spots

section Failure

variable {c : Char} {cs more gap : List Char} {ts : List Token} {position : Nat}

theorem extent?_eq_none_iff :
    extent? c cs = none ↔ isQuote c = true ∧ quotedLength? c c cs = none := by
  cases quote : isQuote c with
  | true => simp [extent?, quote]
  | false =>
    simp only [extent?, quote, Bool.false_eq_true, ↓reduceIte, false_and, iff_false]
    intro nothing
    split at nothing <;> cases nothing

theorem lex_of_legible_append (legible : Legible ts more) (position : Nat) :
    lex position (textBehind ts ++ more) =
      (lex (position + (textBehind ts).length) more).map fun lexed =>
        ⟨ts ++ lexed.tokens, lexed.tail⟩ := by
  induction ts generalizing position with
  | nil =>
    rw [textBehind_nil, List.nil_append, List.length_nil, Nat.add_zero]
    cases lex position more <;> rfl
  | cons t ts ih =>
    rw [textBehind_cons, List.append_assoc, lex_of_heads legible.1, ih legible.2, List.length_append,
      List.length_append, Nat.add_assoc, Nat.add_assoc, ← Nat.add_assoc t.gap.length]
    cases lex (position + (t.gap.length + t.lexeme.length + (textBehind ts).length)) more <;> rfl

theorem lex_of_endless (blank : Text.allBlank gap = true) (solid : Text.isBlank c = false)
    (endless : extent? c cs = none) (position : Nat) :
    lex position (gap ++ c :: cs) = .error ⟨position + gap.length⟩ := by
  have all : ∀ d ∈ gap, Text.isBlank d = true := List.all_eq_true.mp blank
  have front : (gap ++ c :: cs).takeWhile Text.isBlank = gap := by
    rw [List.takeWhile_append_of_pos all, List.takeWhile_cons_of_neg (by simp [solid]),
      List.append_nil]
  have back : (gap ++ c :: cs).dropWhile Text.isBlank = c :: cs := by
    rw [List.dropWhile_append_of_pos all, List.dropWhile_cons_of_neg (by simp [solid])]
  rw [lex]
  split
  · rename_i nothing
    cases back.symm.trans nothing
  · rename_i found
    cases back.symm.trans found
    rw [endless, front]

/-- A text without tokens has whole tokens up to a character that begins none. -/
theorem exists_endless {e : Unterminated} (failed : lex position cs = .error e) :
    ∃ ts gap c rest, cs = textBehind ts ++ (gap ++ c :: rest) ∧ Legible ts (gap ++ c :: rest) ∧
      Text.allBlank gap = true ∧ extent? c rest = none ∧
      e.position = position + (textBehind ts ++ gap).length := by
  induction position, cs using lex.induct generalizing e with
  | case1 position cs nothing =>
    rw [lex] at failed
    split at failed
    · cases failed
    · rename_i found
      cases nothing.symm.trans found
  | case2 position cs c more found endless =>
    rw [lex] at failed
    split at failed
    · rename_i nothing
      cases nothing.symm.trans found
    · rename_i found'
      cases found.symm.trans found'
      rw [endless] at failed
      cases failed
      refine ⟨[], _, c, more, ?_, trivial, List.all_takeWhile, endless, rfl⟩
      rw [textBehind_nil, List.nil_append, ← found, List.takeWhile_append_dropWhile]
  | case3 position cs gap c more found kind n extent =>
    rename_i ih
    rw [lex] at failed
    split at failed
    · rename_i nothing
      cases nothing.symm.trans found
    · rename_i found'
      cases found.symm.trans found'
      rw [extent] at failed
      rcases bind_eq_error.mp failed with later | ⟨lexed, -, impossible⟩
      · obtain ⟨ts, gap', d, rest, text, legible, blank, endless, there⟩ := ih later
        have bound : n ≤ more.length := (extent?_eq_some.mp extent).le
        have joined : more.take n ++ (textBehind ts ++ (gap' ++ d :: rest)) = more := by
          rw [← text, List.take_append_drop]
        have solid : Text.isBlank c = false := by
          have := List.head?_dropWhile_not Text.isBlank cs
          rwa [found] at this
        refine ⟨⟨kind, gap, c :: more.take n⟩ :: ts, gap', d, rest, ?_, ⟨?_, legible⟩, blank, endless, ?_⟩
        · rw [textBehind_cons, List.append_assoc, List.append_assoc, List.cons_append, joined,
            ← found, List.takeWhile_append_dropWhile]
        · refine ⟨List.all_takeWhile, c, more.take n, rfl, solid, ?_⟩
          rw [joined, List.length_take, Nat.min_eq_left bound]
          exact extent
        · rw [there]
          simp only [textBehind_cons, List.length_append, List.length_cons, List.length_take,
            Nat.min_eq_left bound]
          omega
      · cases impossible

theorem ink_of_quote (quote : isQuote c = true) : Text.isBlank c = false ∧ seals c = true := by
  simp only [isQuote, Bool.or_eq_true, beq_iff_eq] at quote
  rcases quote with rfl | rfl <;> decide

theorem tokenize_eq_error_iff : tokenize cs = .error ⟨position⟩ ↔ OpensForever cs position := by
  constructor
  · intro failed
    obtain ⟨ts, gap, quote, rest, rfl, legible, blank, endless, there⟩ := exists_endless failed
    obtain ⟨quoted, unclosed⟩ := extent?_eq_none_iff.mp endless
    have whole : tokenize (textBehind ts ++ gap) = .ok ⟨ts, gap⟩ :=
      tokenize_eq_ok_iff.mpr ⟨rfl, legible.sealed (sealed_of_allBlank blank), blank⟩
    refine ⟨textBehind ts ++ gap, quote, rest, (List.append_assoc ..).symm, ?_, ⟨_, whole⟩, quoted, ?_⟩
    · exact (there.trans (Nat.zero_add _)).symm
    · exact (unclosed_iff quoted).mp (quotedLength?_eq_none_iff.mp unclosed)
  · rintro ⟨front, quote, rest, rfl, rfl, ⟨⟨ts, gap⟩, whole⟩, quoted, escaped⟩
    obtain ⟨rfl, legible, blank⟩ := tokenize_eq_ok_iff.mp whole
    have endless : extent? quote rest = none := extent?_eq_none_iff.mpr
      ⟨quoted, quotedLength?_eq_none_iff.mpr ((unclosed_iff quoted).mpr escaped)⟩
    have reached : Legible ts (gap ++ quote :: rest) := legible.before (ink_of_quote quoted).2 rest
    rw [tokenize, List.append_assoc, lex_of_legible_append reached,
      lex_of_endless blank (ink_of_quote quoted).1 endless, List.length_append, Nat.zero_add]
    rfl

end Failure

/-- Tokens of a text tile it, and a text has none exactly if a quote opens a string that nothing
closes. -/
theorem tokenize_tiles (cs : List Char) :
    (∀ position, tokenize cs = .error ⟨position⟩ ↔ OpensForever cs position) ∧
    ∀ lexed, tokenize cs = .ok lexed → ∃ spots,
      lexed.placed = spots.map Spot.entry ++ [("EOF", [], cs.length, cs.length)] ∧ Tiles cs spots := by
  refine ⟨fun position => tokenize_eq_error_iff, fun ⟨ts, tail⟩ read => ?_⟩
  obtain ⟨rfl, legible, blank⟩ := tokenize_eq_ok_iff.mp read
  have placed := placed_eq ⟨ts, tail⟩ 0 ts
  rw [Nat.zero_add] at placed
  exact ⟨spots 0 ts, placed, tiles_spots legible blank⟩

/-- A pair, then a string that holds a quote behind a backslash; and a text whose last quote opens a
string that nothing closes. -/
theorem tokenize_tiles_quotes :
    (∃ lexed, tokenize "a->'x\\'y' b".toList = .ok lexed ∧ ∃ spots,
      lexed.placed = spots.map Spot.entry ++ [("EOF", [], 11, 11)] ∧
      Tiles "a->'x\\'y' b".toList spots) ∧
    tokenize "'a' 'b\\'".toList = .error ⟨4⟩ ∧ OpensForever "'a' 'b\\'".toList 4 := by
  let lexed : Lexed := ⟨[⟨.word, [], ['a']⟩, ⟨.arrow, [], ['-', '>']⟩,
    ⟨.string, [], ['\'', 'x', '\\', '\'', 'y', '\'']⟩, ⟨.word, [' '], ['b']⟩], []⟩
  have read : tokenize "a->'x\\'y' b".toList = .ok lexed := by decide +kernel
  have failed : tokenize "'a' 'b\\'".toList = .error ⟨4⟩ := by decide +kernel
  exact ⟨⟨lexed, read, (tokenize_tiles _).2 lexed read⟩, failed, ((tokenize_tiles _).1 4).mp failed⟩

end Walkthrough.Expression
