import Walkthrough.Proofs.Expression.Lexing

/-! White space between tokens. Where a token ends hangs on nothing behind it but the next token or
character, and before white space every token ends: so tokens may be moved apart, whatever they are,
and a text may be cut off behind any of them. -/
namespace Walkthrough.Expression

section Alone

variable {c : Char} {cs rest : List Char} {kind : Kind}

theorem quotedLength?_of_append {quote before : Char} {n : Nat}
    (closed : quotedLength? quote before (cs ++ rest) = some n) (within : n ≤ cs.length) :
    quotedLength? quote before cs = some n := by
  induction cs generalizing before n with
  | nil =>
    cases rest with
    | nil => exact closed
    | cons d rest =>
      simp only [List.nil_append, quotedLength?] at closed
      split at closed
      · cases closed
        cases within
      · obtain ⟨m, -, rfl⟩ := Option.map_eq_some_iff.mp closed
        cases within
  | cons d cs ih =>
    simp only [List.cons_append, quotedLength?] at closed ⊢
    split
    · rename_i here
      rwa [if_pos here] at closed
    · rename_i inside
      rw [if_neg inside] at closed
      obtain ⟨m, later, rfl⟩ := Option.map_eq_some_iff.mp closed
      rw [ih later (Nat.le_of_succ_le_succ within)]
      rfl

theorem endsWord_none {next : Option Char} (goes : endsWord c next = false) :
    endsWord c none = false := by
  simp only [endsWord, Bool.or_eq_false_iff] at goes ⊢
  exact ⟨goes.1, by simp [pairKind?_none]⟩

theorem wordLength_cons_of_goes (goes : endsWord c cs.head? = false) :
    wordLength (c :: cs) = wordLength cs + 1 := by
  simp [wordLength, goes]

/-- Each character of a word goes on with it, together with the one behind. -/
theorem goes_of_wordLength (whole : wordLength (c :: cs ++ rest) = (c :: cs).length) :
    endsWord c (cs ++ rest).head? = false ∧ wordLength (cs ++ rest) = cs.length := by
  cases ends : endsWord c (cs ++ rest).head? with
  | true =>
    rw [List.cons_append, wordLength, ends] at whole
    cases whole
  | false =>
    rw [List.cons_append, wordLength_cons_of_goes ends] at whole
    exact ⟨rfl, Nat.succ.inj whole⟩

theorem wordLength_of_append (whole : wordLength (cs ++ rest) = cs.length) :
    wordLength cs = cs.length := by
  induction cs with
  | nil => rfl
  | cons c cs ih =>
    obtain ⟨goes, later⟩ := goes_of_wordLength whole
    have alone : endsWord c cs.head? = false := by
      cases cs with
      | nil => exact endsWord_none goes
      | cons => exact goes
    rw [wordLength_cons_of_goes alone, ih later]
    rfl

/-- A token is one without what follows it, too. -/
theorem Reaches.alone (reaches : Reaches c (cs ++ rest) kind cs.length) :
    Reaches c cs kind cs.length := by
  generalize length : cs.length = n at reaches
  generalize text : cs ++ rest = whole at reaches
  cases reaches with
  | string quote closed =>
    subst text
    exact .string quote (quotedLength?_of_append closed (Nat.le_of_eq length.symm))
  | pair plain pair =>
    subst text
    cases cs with
    | nil => cases length
    | cons d cs => exact .pair plain pair
  | single plain alone single =>
    cases List.eq_nil_of_length_eq_zero length
    exact .single plain (pairKind?_none c) single
  | word plain alone other =>
    subst text
    have whole := wordLength_of_append length.symm
    have unpaired : pairKind? c cs.head? = none := by
      cases cs with
      | nil => exact pairKind?_none c
      | cons => exact alone
    rw [← length, ← whole]
    exact .word plain unpaired other

end Alone

theorem seals_of_isBlank {d : Char} (blank : Text.isBlank d = true) : seals d = true := by
  have other : ∀ e, Text.isBlank e = false → d ≠ e := by
    rintro e solid rfl
    cases solid.symm.trans blank
  simp only [seals, endsWords, Bool.and_eq_true, bne_iff_ne]
  simp [blank, other _ (show Text.isBlank '>' = false by decide),
    other _ (show Text.isBlank '\x7b' = false by decide),
    other _ (show Text.isBlank '|' = false by decide),
    other _ (show Text.isBlank '&' = false by decide),
    other _ (show Text.isBlank '=' = false by decide),
    other _ (show Text.isBlank '?' = false by decide)]

/-- What may stand behind a token in place of what does: nothing, a character before which every
token ends, or the same token with something else behind it. -/
inductive Replaces : List Char → List Char → Prop where
  | nothing {rest : List Char} : Replaces rest []
  | sealing {rest more : List Char} {d : Char} (sealing : seals d = true) : Replaces rest (d :: more)
  | token {t : Token} {rest rest' : List Char} (heads : t.Heads rest) :
    Replaces (t.lexeme ++ rest) (t.lexeme ++ rest')

section Replacement

variable {c d : Char} {cs es rest rest' : List Char} {kind : Kind} {t : Token}

/-- Whether a token ends the word before it hangs on that token alone. -/
theorem endsWord_of_token (reaches : Reaches d (es ++ rest) kind es.length)
    (solid : Text.isBlank d = false) (ends : endsWord d (es ++ rest).head? = true) :
    endsWord d (es ++ rest').head? = true := by
  cases es with
  | cons e es => exact ends
  | nil =>
    generalize length : ([] : List Char).length = n at reaches
    cases reaches with
    | string quote => simp [endsWord, quote]
    | pair => cases length
    | single plain alone single => simp [endsWord, single]
    | word plain alone other =>
      -- a word of one character would have gone on with the word before it
      have goes : endsWord d ([] ++ rest).head? = false := by
        rw [endsWord, solid, plain, other, alone]
        rfl
      cases goes.symm.trans ends

theorem wordLength_replaced (whole : wordLength (cs ++ d :: rest) = cs.length)
    (same : endsWord d rest.head? = true → endsWord d rest'.head? = true) :
    wordLength (cs ++ d :: rest') = cs.length := by
  induction cs with
  | nil =>
    cases ends : endsWord d rest.head? with
    | true => simp [wordLength, same ends]
    | false =>
      rw [List.nil_append, wordLength_cons_of_goes ends] at whole
      cases whole
  | cons c cs ih =>
    obtain ⟨goes, later⟩ := goes_of_wordLength whole
    have head : (cs ++ d :: rest').head? = (cs ++ d :: rest).head? := by cases cs <;> rfl
    rw [List.cons_append, wordLength_cons_of_goes (head ▸ goes), ih later]
    rfl

theorem Reaches.replace (reaches : Reaches c (cs ++ rest) kind cs.length)
    (replaces : Replaces rest rest') : Reaches c (cs ++ rest') kind cs.length := by
  cases replaces with
  | nothing =>
    rw [List.append_nil]
    exact reaches.alone
  | sealing sealing => exact reaches.alone.append sealing _
  | @token t rest rest' heads =>
    obtain ⟨-, d, es, lexeme, solid, extent⟩ := heads
    have next := extent?_eq_some.mp extent
    rw [lexeme] at reaches ⊢
    have head : (cs ++ (d :: es ++ rest')).head? = (cs ++ (d :: es ++ rest)).head? := by
      cases cs <;> rfl
    generalize length : cs.length = n at reaches ⊢
    generalize text : cs ++ (d :: es ++ rest) = whole at reaches
    cases reaches with
    | string quote closed =>
      subst text
      have alone := quotedLength?_of_append closed (Nat.le_of_eq length.symm)
      exact .string quote (quotedLength?_append _ alone)
    | pair plain pair =>
      subst text
      exact .pair plain (head ▸ pair)
    | single plain alone single =>
      subst text
      exact .single plain (head ▸ alone) single
    | word plain alone other =>
      subst text
      have same : wordLength (cs ++ (d :: es ++ rest')) = cs.length :=
        wordLength_replaced length.symm (endsWord_of_token next solid)
      rw [← length, ← same]
      exact .word plain (head ▸ alone) other

theorem Token.Heads.replace (heads : t.Heads rest) (replaces : Replaces rest rest') :
    t.Heads rest' := by
  obtain ⟨gap, c, cs, lexeme, solid, extent⟩ := heads
  have reaches := (extent?_eq_some.mp extent).replace replaces
  exact ⟨gap, c, cs, lexeme, solid, extent?_eq_some.mpr reaches⟩

end Replacement

/-- The same token with white space before it, and with some if it had some. -/
structure Token.Spaced (t u : Token) : Prop where
  kind : u.kind = t.kind
  lexeme : u.lexeme = t.lexeme
  blank : Text.allBlank u.gap = true
  kept : u.gap = [] → t.gap = []

theorem Token.Spaced.refl {t : Token} (blank : Text.allBlank t.gap = true) : t.Spaced t :=
  ⟨rfl, rfl, blank, id⟩

theorem Token.Spaced.heads {t u : Token} {rest : List Char} (spaced : t.Spaced u)
    (heads : t.Heads rest) : u.Heads rest := by
  refine ⟨spaced.blank, ?_⟩
  rw [spaced.kind, spaced.lexeme]
  exact heads.lexeme

/-- A text ends here, or goes on with a character before which every token ends. -/
def Sealed (rest : List Char) : Prop := ∀ d ∈ rest.head?, seals d = true

theorem sealed_of_allBlank {rest : List Char} (blank : Text.allBlank rest = true) :
    Sealed rest := by
  intro d first
  exact seals_of_isBlank (List.all_eq_true.mp blank d (List.mem_of_mem_head? first))

section Legible

variable {ts us : List Token} {tail tail' : List Char}

theorem replaces_of_sealed {rest : List Char} (ends : Sealed tail) : Replaces rest tail := by
  cases tail with
  | nil => exact .nothing
  | cons d more => exact .sealing (ends d rfl)

theorem replaces_of_spaced (legible : Legible ts tail) (spaced : List.Forall₂ Token.Spaced ts us)
    (ends : Sealed tail') : Replaces (textBehind ts ++ tail) (textBehind us ++ tail') := by
  cases spaced with
  | nil => exact replaces_of_sealed ends
  | @cons t u ts us first later =>
    cases gap : u.gap with
    | nil =>
      have none : t.gap = [] := first.kept gap
      simp only [textBehind_cons, gap, none, first.lexeme, List.nil_append, List.append_assoc]
      exact .token legible.1
    | cons d gap' =>
      have blank : Text.isBlank d = true := by
        apply List.all_eq_true.mp first.blank
        rw [gap]
        exact List.mem_cons_self
      simp only [textBehind_cons, gap, List.cons_append]
      exact .sealing (seals_of_isBlank blank)

/-- Tokens stay legible when they are moved apart, and whatever comes to stand behind the last if no
token runs into it. -/
theorem Legible.spaced (legible : Legible ts tail) (spaced : List.Forall₂ Token.Spaced ts us)
    (ends : Sealed tail') : Legible us tail' := by
  induction spaced with
  | nil => trivial
  | cons first later ih =>
    have replaces := replaces_of_spaced legible.2 later ends
    exact ⟨first.heads (legible.1.replace replaces), ih legible.2⟩

theorem Legible.blank (legible : Legible ts tail) : ∀ t ∈ ts, Text.allBlank t.gap = true := by
  induction ts with
  | nil => exact nofun
  | cons t ts ih => exact List.forall_mem_cons.mpr ⟨legible.1.gap, ih legible.2⟩

/-- Tokens stay legible if what is behind them is cut off or exchanged. -/
theorem Legible.sealed (legible : Legible ts tail) (ends : Sealed tail') : Legible ts tail' := by
  refine legible.spaced (List.forall₂_same.mpr fun t inside => ?_) ends
  exact .refl (legible.blank t inside)

end Legible

/-- A text with more characters before each of its own, and behind the last. -/
def inserted (extra : Nat → List Char) (position : Nat) : List Char → List Char
  | [] => extra position
  | c :: cs => extra position ++ c :: inserted extra (position + 1) cs

section Inserted

variable {extra : Nat → List Char} {cs ds : List Char} {c : Char} {position : Nat}

theorem inserted_append_cons :
    inserted extra position (cs ++ c :: ds) =
      inserted extra position cs ++ c :: inserted extra (position + cs.length + 1) ds := by
  induction cs generalizing position with
  | nil => rfl
  | cons d cs ih =>
    simp only [List.cons_append, inserted, ih, List.append_assoc, List.length_cons]
    rw [show position + 1 + cs.length = position + (cs.length + 1) by omega]

theorem inserted_append_of_none (none : ∀ i < cs.length, extra (position + i) = []) :
    inserted extra position (cs ++ ds) = cs ++ inserted extra (position + cs.length) ds := by
  induction cs generalizing position with
  | nil => rfl
  | cons c cs ih =>
    have here : extra position = [] := none 0 (Nat.zero_lt_succ _)
    have later := @ih (position + 1) fun i below => by
      rw [show position + 1 + i = position + (i + 1) by omega]
      exact none (i + 1) (Nat.succ_lt_succ below)
    rw [List.cons_append, inserted, here, later, List.length_cons,
      show position + 1 + cs.length = position + (cs.length + 1) by omega]
    rfl

theorem length_le_inserted (extra : Nat → List Char) (position : Nat) (cs : List Char) :
    cs.length ≤ (inserted extra position cs).length := by
  induction cs generalizing position with
  | nil => exact Nat.zero_le _
  | cons c cs ih =>
    have := ih (position + 1)
    simp only [inserted, List.length_append, List.length_cons]
    omega

theorem allBlank_inserted (blank : ∀ i, Text.allBlank (extra i) = true)
    (own : Text.allBlank cs = true) : Text.allBlank (inserted extra position cs) = true := by
  induction cs generalizing position with
  | nil => exact blank position
  | cons c cs ih =>
    simp only [Text.allBlank, List.all_cons, Bool.and_eq_true] at own
    have later := @ih (position + 1) own.2
    have here := blank position
    simp only [Text.allBlank] at here later
    simp [inserted, Text.allBlank, here, own.1, later]

end Inserted

/-- No token has characters on both sides of the position. -/
def Lexed.Boundary (lexed : Lexed) (i : Nat) : Prop :=
  ∀ entry ∈ lexed.placed, i ≤ entry.2.2.1 ∨ entry.2.2.2 ≤ i

/-- Kinds and texts of the tokens, without their positions. -/
def Lexed.spelling (lexed : Lexed) : List (String × List Char) :=
  lexed.placed.map fun entry => (entry.1, entry.2.1)

theorem Token.Spaced.value {t u : Token} (spaced : t.Spaced u) : u.value = t.value := by
  rw [Token.value, Token.value, spaced.kind, spaced.lexeme]

section Boundaries

variable {extra : Nat → List Char} {ts us : List Token} {tail tail' : List Char} {position : Nat}

theorem spelling_spaced (spaced : List.Forall₂ Token.Spaced ts us) (tail tail' : List Char) :
    (Lexed.mk us tail').spelling = (Lexed.mk ts tail).spelling := by
  have go (m n : Nat) : (Lexed.placed.go ⟨us, tail'⟩ m us).map (fun entry => (entry.1, entry.2.1)) =
      (Lexed.placed.go ⟨ts, tail⟩ n ts).map fun entry => (entry.1, entry.2.1) := by
    generalize Lexed.mk us tail' = read
    generalize Lexed.mk ts tail = read'
    induction spaced generalizing m n with
    | nil => rfl
    | cons first later ih =>
      simp only [Lexed.placed.go, List.map_cons, first.kind, first.value]
      rw [ih]
  exact go 0 0

/-- A token of a text with white space put in between is that token, with the white space that came
before it. -/
theorem inserted_token {t : Token} {rest : List Char} (heads : t.Heads rest)
    (outside : ∀ i, extra i ≠ [] →
      i ≤ position + t.gap.length ∨ position + t.gap.length + t.lexeme.length ≤ i) :
    inserted extra position (t.gap ++ t.lexeme ++ rest) =
      inserted extra position t.gap ++ t.lexeme ++
        inserted extra (position + t.gap.length + t.lexeme.length) rest := by
  obtain ⟨c, cs, lexeme, -, -⟩ := heads.lexeme
  rw [lexeme, List.length_cons] at outside
  have none : ∀ i < cs.length, extra (position + t.gap.length + 1 + i) = [] := by
    intro i below
    by_contra some
    have := outside _ some
    omega
  rw [lexeme, List.append_assoc, List.cons_append, inserted_append_cons,
    inserted_append_of_none none, List.length_cons,
    show position + t.gap.length + 1 + cs.length = position + t.gap.length + (cs.length + 1) by omega]
  simp

theorem exists_spaced {lexed : Lexed} (legible : Legible ts tail)
    (blank : ∀ i, Text.allBlank (extra i) = true) (ends : Text.allBlank tail = true)
    (outside : ∀ i, extra i ≠ [] → ∀ entry ∈ Lexed.placed.go lexed position ts,
      i ≤ entry.2.2.1 ∨ entry.2.2.2 ≤ i) :
    ∃ us tail', inserted extra position (textBehind ts ++ tail) = textBehind us ++ tail' ∧
      List.Forall₂ Token.Spaced ts us ∧ Text.allBlank tail' = true := by
  induction ts generalizing position with
  | nil => exact ⟨[], _, rfl, .nil, allBlank_inserted blank ends⟩
  | cons t ts ih =>
    simp only [Lexed.placed.go, List.forall_mem_cons] at outside
    obtain ⟨us, tail', text, later, blank'⟩ := ih legible.2 fun i some => (outside i some).2
    have here := inserted_token legible.1 fun i some => (outside i some).1
    refine ⟨⟨t.kind, inserted extra position t.gap, t.lexeme⟩ :: us, tail', ?_, ?_, blank'⟩
    · rw [textBehind_cons, textBehind_cons, List.append_assoc, here, text, ← List.append_assoc]
    · refine .cons ⟨rfl, rfl, allBlank_inserted blank legible.1.gap, fun nothing => ?_⟩ later
      have := length_le_inserted extra position t.gap
      rw [show inserted extra position t.gap = [] from nothing] at this
      exact List.eq_nil_of_length_eq_zero (Nat.le_zero.mp this)

end Boundaries

/-- White space put in at the boundaries of tokens leaves the tokens what they are. -/
theorem tokenize_inserted {cs : List Char} {lexed : Lexed} {extra : Nat → List Char}
    (read : tokenize cs = .ok lexed) (blank : ∀ i, Text.allBlank (extra i) = true)
    (boundary : ∀ i, extra i ≠ [] → lexed.Boundary i) :
    ∃ spaced, tokenize (inserted extra 0 cs) = .ok spaced ∧ spaced.spelling = lexed.spelling := by
  obtain ⟨ts, tail⟩ := lexed
  obtain ⟨rfl, legible, ends⟩ := tokenize_eq_ok_iff.mp read
  obtain ⟨us, tail', text, spaced, ends'⟩ := exists_spaced legible blank ends boundary
  refine ⟨⟨us, tail'⟩, tokenize_eq_ok_iff.mpr ⟨text, ?_, ends'⟩, spelling_spaced spaced tail tail'⟩
  exact legible.spaced spaced (sealed_of_allBlank ends')

/-- Pairs side by side, a quote behind a backslash inside a string, and one that opens a string behind
a word with a backslash at its end. -/
theorem tokenize_inserted_pairs :
    let cs := "a->b??'x\\'y'!=$b\\\"q\"".toList
    let extra := fun i => if i ∈ [0, 1, 3, 4, 6, 12, 17, 20] then [' ', '\u2003'] else []
    ∃ lexed, tokenize cs = .ok lexed ∧ (∀ i, Text.allBlank (extra i) = true) ∧
      (∀ i, extra i ≠ [] → lexed.Boundary i) ∧
      inserted extra 0 cs =
        " \u2003a \u2003-> \u2003b \u2003?? \u2003'x\\'y' \u2003!=$b\\ \u2003\"q\" \u2003".toList ∧
      ∃ spaced, tokenize (inserted extra 0 cs) = .ok spaced ∧ spaced.spelling = lexed.spelling := by
  intro cs extra
  let lexed : Lexed := ⟨[⟨.word, [], ['a']⟩, ⟨.arrow, [], ['-', '>']⟩, ⟨.word, [], ['b']⟩,
    ⟨.exist, [], ['?', '?']⟩, ⟨.string, [], ['\'', 'x', '\\', '\'', 'y', '\'']⟩, ⟨.ne, [], ['!', '=']⟩,
    ⟨.word, [], ['$', 'b', '\\']⟩, ⟨.string, [], ['"', 'q', '"']⟩], []⟩
  have read : tokenize cs = .ok lexed := by decide +kernel
  have blank : ∀ i, Text.allBlank (extra i) = true := by
    intro i
    dsimp only [extra]
    split <;> rfl
  have boundary : ∀ i, extra i ≠ [] → lexed.Boundary i := by
    have all : ∀ i ∈ [0, 1, 3, 4, 6, 12, 17, 20], ∀ entry ∈ lexed.placed,
        i ≤ entry.2.2.1 ∨ entry.2.2.2 ≤ i := by decide
    intro i some
    apply all
    by_contra absent
    exact some (if_neg absent)
  exact ⟨lexed, read, blank, boundary, by decide +kernel, tokenize_inserted read blank boundary⟩

end Walkthrough.Expression
