import Walkthrough.Expression.Token
import Walkthrough.Proofs.Attempt

/-! When a text has given tokens. A token is read off a text if it stands at its front and the
lexer would end it there, which needs at most the first character behind it; a text has exactly
those tokens that make it up and are each read off what is left. So tokens may be carried from one
text to another, as long as what follows them does not go on with the last. -/
namespace Walkthrough.Expression

theorem textBehind_append (ts us : List Token) :
    textBehind (ts ++ us) = textBehind ts ++ textBehind us := List.flatMap_append

@[simp] theorem textBehind_nil : textBehind [] = [] := rfl

@[simp] theorem textBehind_cons (t : Token) (ts : List Token) :
    textBehind (t :: ts) = t.gap ++ t.lexeme ++ textBehind ts := rfl

/-- What the first character of a token decides, and how far the token then reaches. -/
inductive Reaches (c : Char) (cs : List Char) : Kind → Nat → Prop where
  | string {n : Nat} (quote : isQuote c = true) (closed : quotedLength? c c cs = some n) :
      Reaches c cs .string n
  | pair {kind : Kind} (plain : isQuote c = false) (pair : pairKind? c cs.head? = some kind) :
      Reaches c cs kind 1
  | single {kind : Kind} (plain : isQuote c = false) (alone : pairKind? c cs.head? = none)
      (single : singleKind? c = some kind) : Reaches c cs kind 0
  | word (plain : isQuote c = false) (alone : pairKind? c cs.head? = none)
      (other : singleKind? c = none) : Reaches c cs .word (wordLength cs)

theorem extent?_eq_some {c : Char} {cs : List Char} {kind : Kind} {n : Nat} :
    extent? c cs = some (kind, n) ↔ Reaches c cs kind n := by
  constructor
  · intro found
    unfold extent? at found
    split at found
    · rename_i quote
      obtain ⟨m, closed, same⟩ := Option.map_eq_some_iff.mp found
      cases same
      exact .string quote closed
    · rename_i plain
      have plain : isQuote c = false := by simpa using plain
      split at found
      · rename_i pair
        cases found
        exact .pair plain pair
      · rename_i alone single
        cases found
        exact .single plain alone single
      · rename_i alone other
        cases found
        exact .word plain alone other
  · intro reaches
    cases reaches with
    | string quote closed => simp [extent?, quote, closed]
    | pair plain pair => simp [extent?, plain, pair]
    | single plain alone single => simp [extent?, plain, alone, single]
    | word plain alone other => simp [extent?, plain, alone, other]

/-- The text in front of `rest` is this token. -/
structure Token.Heads (t : Token) (rest : List Char) : Prop where
  gap : Text.allBlank t.gap = true
  lexeme : ∃ c cs, t.lexeme = c :: cs ∧ Text.isBlank c = false ∧
    extent? c (cs ++ rest) = some (t.kind, cs.length)

/-- The lexer reads these tokens off the text that they make up in front of `rest`. -/
def Legible : List Token → List Char → Prop
  | [], _ => True
  | t :: ts, rest => t.Heads (textBehind ts ++ rest) ∧ Legible ts rest

theorem Legible.append {ts us : List Token} {rest : List Char}
    (left : Legible ts (textBehind us ++ rest)) (right : Legible us rest) :
    Legible (ts ++ us) rest := by
  induction ts with
  | nil => exact right
  | cons t ts ih =>
    refine ⟨?_, ih left.2⟩
    rw [List.append_eq, textBehind_append, List.append_assoc]
    exact left.1

theorem Legible.of_append {ts us : List Token} {rest : List Char} (legible : Legible (ts ++ us) rest) :
    Legible ts (textBehind us ++ rest) ∧ Legible us rest := by
  induction ts with
  | nil => exact ⟨trivial, legible⟩
  | cons t ts ih =>
    obtain ⟨heads, later⟩ := legible
    obtain ⟨left, right⟩ := ih later
    rw [List.append_eq, textBehind_append, List.append_assoc] at heads
    exact ⟨⟨heads, left⟩, right⟩

theorem lex_of_blank {position : Nat} {tail : List Char} (blank : Text.allBlank tail = true) :
    lex position tail = .ok ⟨[], tail⟩ := by
  have all : ∀ c ∈ tail, Text.isBlank c = true := List.all_eq_true.mp blank
  have none : (tail ++ []).dropWhile Text.isBlank = [] := List.dropWhile_append_of_pos all
  rw [List.append_nil] at none
  have parts := List.takeWhile_append_dropWhile (p := Text.isBlank) (l := tail)
  have whole : tail.takeWhile Text.isBlank = tail := by rwa [none, List.append_nil] at parts
  rw [lex]
  split
  · rw [whole]
  · rename_i more
    rw [none] at more
    cases more

theorem lex_of_heads {t : Token} {rest : List Char} (heads : t.Heads rest) (position : Nat) :
    lex position (t.gap ++ t.lexeme ++ rest) =
      (lex (position + t.gap.length + t.lexeme.length) rest).map fun lexed =>
        ⟨t :: lexed.tokens, lexed.tail⟩ := by
  obtain ⟨kind, gap, lexeme⟩ := t
  obtain ⟨blank, c, cs, rfl, solid, extent⟩ := heads
  simp only [List.append_assoc, List.cons_append] at *
  rw [lex]
  have all : ∀ c ∈ gap, Text.isBlank c = true := List.all_eq_true.mp blank
  have front : (gap ++ c :: (cs ++ rest)).takeWhile Text.isBlank = gap := by
    rw [List.takeWhile_append_of_pos all, List.takeWhile_cons_of_neg (by simp [solid]),
      List.append_nil]
  have back : (gap ++ c :: (cs ++ rest)).dropWhile Text.isBlank = c :: (cs ++ rest) := by
    rw [List.dropWhile_append_of_pos all, List.dropWhile_cons_of_neg (by simp [solid])]
  split
  · rename_i nothing
    rw [back] at nothing
    cases nothing
  · rename_i d more found
    rw [back] at found
    cases found
    rw [extent, front]
    simp only [List.drop_left, List.take_left, List.length_cons]
    rw [show position + gap.length + (cs.length + 1) = position + gap.length + 1 + cs.length by omega]
    cases lex (position + gap.length + 1 + cs.length) rest <;> rfl

theorem lex_of_legible {ts : List Token} {tail : List Char} (legible : Legible ts tail)
    (blank : Text.allBlank tail = true) (position : Nat) :
    lex position (textBehind ts ++ tail) = .ok ⟨ts, tail⟩ := by
  induction ts generalizing position with
  | nil => exact lex_of_blank blank
  | cons t ts ih =>
    rw [textBehind_cons, List.append_assoc, lex_of_heads legible.1, ih legible.2]
    rfl

theorem quotedLength?_le {quote before : Char} {cs : List Char} {n : Nat}
    (closed : quotedLength? quote before cs = some n) : n ≤ cs.length := by
  induction cs generalizing before n with
  | nil => cases closed
  | cons c cs ih =>
    simp only [quotedLength?] at closed
    split at closed
    · cases closed
      simp
    · obtain ⟨m, inner, rfl⟩ := Option.map_eq_some_iff.mp closed
      have := ih inner
      simp only [List.length_cons]
      omega

theorem wordLength_le (cs : List Char) : wordLength cs ≤ cs.length := by
  induction cs with
  | nil => exact Nat.le_refl _
  | cons c cs ih =>
    simp only [wordLength]
    split
    · exact Nat.zero_le _
    · simp only [List.length_cons]
      omega

theorem pairKind?_none (c : Char) : pairKind? c none = none := by
  unfold pairKind?
  split <;> first | rfl | contradiction

theorem Reaches.le {c : Char} {cs : List Char} {kind : Kind} {n : Nat}
    (reaches : Reaches c cs kind n) : n ≤ cs.length := by
  cases reaches with
  | string _ closed => exact quotedLength?_le closed
  | pair _ pair =>
    cases cs with
    | nil =>
      rw [List.head?_nil, pairKind?_none] at pair
      cases pair
    | cons => simp
  | single => exact Nat.zero_le _
  | word => exact wordLength_le cs

theorem legible_of_lex {position : Nat} {cs : List Char} {lexed : Lexed}
    (read : lex position cs = .ok lexed) :
    cs = textBehind lexed.tokens ++ lexed.tail ∧ Legible lexed.tokens lexed.tail ∧
      Text.allBlank lexed.tail = true := by
  -- the cases of the lexer: white space only, a string without end, a token and what follows it
  induction position, cs using lex.induct generalizing lexed with
  | case1 position cs nothing =>
    rw [lex] at read
    split at read
    · cases read
      have parts := List.takeWhile_append_dropWhile (p := Text.isBlank) (l := cs)
      rw [nothing, List.append_nil] at parts
      exact ⟨parts.symm, trivial, List.all_takeWhile⟩
    · rename_i found
      cases nothing.symm.trans found
  | case2 position cs c more found endless =>
    rw [lex] at read
    split at read
    · rename_i nothing
      cases nothing.symm.trans found
    · rename_i found'
      cases found.symm.trans found'
      rw [endless] at read
      cases read
  | case3 position cs gap c more found kind n extent =>
    rename_i ih
    rw [lex] at read
    split at read
    · rename_i nothing
      cases nothing.symm.trans found
    · rename_i found'
      cases found.symm.trans found'
      rw [extent] at read
      obtain ⟨rest, readRest, same⟩ := bind_eq_ok.mp read
      cases same
      obtain ⟨covers, legible, blank⟩ := ih readRest
      have joined : more.take n ++ (textBehind rest.tokens ++ rest.tail) = more := by
        rw [← covers, List.take_append_drop]
      have solid : Text.isBlank c = false := by
        have := List.head?_dropWhile_not Text.isBlank cs
        rwa [found] at this
      have bound : n ≤ more.length := (extent?_eq_some.mp extent).le
      refine ⟨?_, ⟨⟨List.all_takeWhile, c, more.take n, rfl, solid, ?_⟩, legible⟩, blank⟩
      · rw [textBehind_cons, List.append_assoc, List.append_assoc, List.cons_append, joined,
          ← found, List.takeWhile_append_dropWhile]
      · rw [joined, List.length_take, Nat.min_eq_left bound]
        exact extent

/-- A text has those tokens that make it up, with white space behind them, and are legible. -/
theorem tokenize_eq_ok_iff {cs tail : List Char} {ts : List Token} :
    tokenize cs = .ok ⟨ts, tail⟩ ↔
      cs = textBehind ts ++ tail ∧ Legible ts tail ∧ Text.allBlank tail = true := by
  constructor
  · intro read
    exact legible_of_lex read
  · rintro ⟨rfl, legible, blank⟩
    exact lex_of_legible legible blank 0

/-- A word ends before such a character, whatever follows that. -/
def endsWords (d : Char) : Bool :=
  (Text.isBlank d || isQuote d || (singleKind? d).isSome) && d != '>' && d != '{'

/-- Every token ends before such a character: it ends words and is no second half of a pair. -/
def seals (d : Char) : Bool := endsWords d && d != '|' && d != '&' && d != '=' && d != '?'

theorem pairKind?_of_endsWords {c d : Char} (ends : endsWords d = true)
    (other : singleKind? c = none) : pairKind? c (some d) = none := by
  simp only [endsWords, Bool.and_eq_true, bne_iff_ne] at ends
  unfold pairKind?
  split <;> simp_all [singleKind?]

theorem pairKind?_of_seals {d : Char} (sealing : seals d = true) (c : Char) :
    pairKind? c (some d) = none := by
  simp only [seals, endsWords, Bool.and_eq_true, bne_iff_ne] at sealing
  unfold pairKind?
  split <;> simp_all

theorem endsWord_of_endsWords {d : Char} (ends : endsWords d = true) (next : Option Char) :
    endsWord d next = true := by
  simp only [endsWords, Bool.and_eq_true] at ends
  simp [endsWord, ends.1.1]

theorem head?_append_of_endsWords {c d : Char} {cs rest : List Char} (ends : endsWords d = true)
    (other : singleKind? c = none) :
    pairKind? c (cs ++ d :: rest).head? = pairKind? c cs.head? := by
  cases cs with
  | nil => simp [pairKind?_none, pairKind?_of_endsWords ends other]
  | cons => rfl

theorem wordLength_append {cs rest : List Char} {d : Char} (ends : endsWords d = true) :
    wordLength (cs ++ d :: rest) = wordLength cs := by
  induction cs with
  | nil => simp [wordLength, endsWord_of_endsWords ends]
  | cons c cs ih =>
    have same : endsWord c (cs ++ d :: rest).head? = endsWord c cs.head? := by
      cases other : singleKind? c with
      | some kind => simp [endsWord, other]
      | none => simp only [endsWord, head?_append_of_endsWords ends other]
    simp only [List.cons_append, wordLength, same, ih]

theorem quotedLength?_append {quote before : Char} {cs : List Char} {n : Nat} (more : List Char)
    (closed : quotedLength? quote before cs = some n) :
    quotedLength? quote before (cs ++ more) = some n := by
  induction cs generalizing before n with
  | nil => cases closed
  | cons c cs ih =>
    simp only [quotedLength?, List.cons_append] at closed ⊢
    split
    · rename_i here
      rw [if_pos here] at closed
      exact closed
    · rename_i inside
      rw [if_neg inside] at closed
      obtain ⟨m, later, rfl⟩ := Option.map_eq_some_iff.mp closed
      rw [ih later]
      rfl

theorem Reaches.append {c d : Char} {cs : List Char} {kind : Kind} {n : Nat}
    (reaches : Reaches c cs kind n) (sealing : seals d = true) (rest : List Char) :
    Reaches c (cs ++ d :: rest) kind n := by
  have ends : endsWords d = true := by
    simp only [seals, Bool.and_eq_true] at sealing
    exact sealing.1.1.1.1
  -- an empty `cs` had nothing to pair `c` with, and `d` is no second half of a pair
  have next : pairKind? c (cs ++ d :: rest).head? = pairKind? c cs.head? := by
    cases cs with
    | nil => simp [pairKind?_none, pairKind?_of_seals sealing]
    | cons => rfl
  cases reaches with
  | string quote closed => exact .string quote (quotedLength?_append _ closed)
  | pair plain pair => exact .pair plain (next ▸ pair)
  | single plain alone single => exact .single plain (next ▸ alone) single
  | word plain alone other =>
    have same : wordLength (cs ++ d :: rest) = wordLength cs := wordLength_append ends
    rw [← same]
    exact .word plain (next ▸ alone) other

theorem Legible.before {ts : List Token} {tail : List Char} {d : Char} (legible : Legible ts tail)
    (sealing : seals d = true) (rest : List Char) : Legible ts (tail ++ d :: rest) := by
  induction ts with
  | nil => trivial
  | cons t ts ih =>
    obtain ⟨⟨gap, c, cs, lexeme, solid, extent⟩, later⟩ := legible
    refine ⟨⟨gap, c, cs, lexeme, solid, ?_⟩, ih later⟩
    have reaches := (extent?_eq_some.mp extent).append sealing rest
    rw [extent?_eq_some]
    simpa only [List.append_assoc] using reaches

/-- How an operator or a bracket is written. -/
def Kind.sign : Kind → List Char
  | .leftParen => ['('] | .rightParen => [')']
  | .leftBrace => ['\x7b'] | .rightBrace => ['\x7d']
  | .leftBracket => ['['] | .rightBracket => [']'] | .dollarBrace => ['$', '\x7b']
  | .comma => [','] | .colon => [':'] | .or => ['|', '|'] | .and => ['&', '&']
  | .eq => ['=', '='] | .ne => ['!', '='] | .ge => ['>', '='] | .le => ['<', '=']
  | .gt => ['>'] | .lt => ['<'] | .plus => ['+'] | .not => ['!']
  | .question => ['?'] | .exist => ['?', '?'] | .arrow => ['-', '>']
  | .word | .string | .other => []

def sign (kind : Kind) (gap : List Char) : Token := ⟨kind, gap, kind.sign⟩

@[simp] theorem sign_kind (kind : Kind) (gap : List Char) : (sign kind gap).kind = kind := rfl

@[simp] theorem sign_gap (kind : Kind) (gap : List Char) : (sign kind gap).gap = gap := rfl

@[simp] theorem sign_lexeme (kind : Kind) (gap : List Char) :
    (sign kind gap).lexeme = kind.sign := rfl

/-- A sign of one character may be the first half of a pair. -/
def Kind.opensPair (kind : Kind) : Bool := [.gt, .lt, .not, .question].contains kind

theorem heads_sign {kind : Kind} {gap rest : List Char} (blank : Text.allBlank gap = true)
    (spelled : kind.sign ≠ [])
    (apart : kind.opensPair = true → ∀ c ∈ kind.sign, pairKind? c rest.head? = none) :
    (sign kind gap).Heads rest := by
  refine ⟨blank, ?_⟩
  cases kind with
  | word | string | other => exact absurd rfl spelled
  | or | and | eq | ne | ge | le | exist | arrow | dollarBrace =>
    exact ⟨_, _, rfl, by decide, extent?_eq_some.mpr (.pair rfl rfl)⟩
  | gt | lt | not | question =>
    exact ⟨_, _, rfl, by decide,
      extent?_eq_some.mpr (.single rfl (apart rfl _ List.mem_cons_self) rfl)⟩
  | leftParen | rightParen | leftBrace | rightBrace | leftBracket | rightBracket | comma | colon
  | plus =>
    exact ⟨_, _, rfl, by decide, extent?_eq_some.mpr (.single rfl (by simp [pairKind?]) rfl)⟩

theorem heads_closed {kind : Kind} {gap : List Char} (rest : List Char)
    (blank : Text.allBlank gap = true) (spelled : kind.sign ≠ []) (closed : kind.opensPair = false) :
    (sign kind gap).Heads rest :=
  heads_sign blank spelled fun opens => absurd opens (by simp [closed])

theorem Legible.cons {kind : Kind} {gap rest : List Char} {ts : List Token}
    (blank : Text.allBlank gap = true) (spelled : kind.sign ≠ []) (closed : kind.opensPair = false)
    (later : Legible ts rest) : Legible (sign kind gap :: ts) rest :=
  ⟨heads_closed _ blank spelled closed, later⟩

end Walkthrough.Expression
