import Walkthrough.Proofs.Expression.Grouping
import Walkthrough.Proofs.Expression.Printing

/-! Texts in which the lexer finds no bracket but those that stand outside of double quotes. There is
no backslash in them, and outside of the quotes neither a parenthesis nor the beginning or the end
of an operator of two characters, but for a hyphen. How many brackets are open behind such a text
can be counted on its characters. -/
namespace Walkthrough.Expression

/-- The characters with which operators begin that are not found in words. -/
def operatorStarts : List Char := "|&=!<>?$".toList

/-- A character outside of quotes that is no bracket and makes no operator with its neighbours. -/
def Quiet (c : Char) : Prop :=
  isQuote c = false ∧ c ∉ operatorStarts ∧ c ∉ "()[]\x7b\x7d".toList

instance (c : Char) : Decidable (Quiet c) := inferInstanceAs (Decidable (_ ∧ _))

/-- A text that leads from one number of open brackets to another. -/
inductive Climbs : Nat → List Char → Nat → Prop where
  | nil {n : Nat} : Climbs n [] n
  | quiet {m n : Nat} {c : Char} {cs : List Char} (quiet : Quiet c) (rest : Climbs n cs m) :
      Climbs n (c :: cs) m
  | opening {m n : Nat} {c : Char} {cs : List Char} (opener : c = '[' ∨ c = '\x7b')
      (rest : Climbs (n + 1) cs m) : Climbs n (c :: cs) m
  | closing {m n : Nat} {c : Char} {cs : List Char} (closer : c = ']' ∨ c = '\x7d')
      (rest : Climbs n cs m) : Climbs (n + 1) (c :: cs) m
  | string {m n : Nat} {s cs : List Char} (unquoted : '"' ∉ s) (unescaped : '\\' ∉ s)
      (rest : Climbs n cs m) : Climbs n ('"' :: (s ++ '"' :: cs)) m

variable {k m n : Nat} {c : Char} {cs ds : List Char} {kind : Kind}

theorem pairKind?_hyphen {next : Option Char} (other : next ≠ some '>') :
    pairKind? '-' next = none := by
  unfold pairKind?
  split <;> simp_all

theorem neutral_of_quiet (quiet : Quiet c) (single : singleKind? c = some kind) :
    kind.isNeutral = true := by
  unfold singleKind? at single
  split at single <;> cases single <;> first | rfl | exact absurd quiet (by decide)

theorem height?_neutral {t : Token} {ts : List Token} (neutral : t.kind.isNeutral = true) :
    height? Kind.isOpener Kind.isCloser n (t :: ts) = height? Kind.isOpener Kind.isCloser n ts := by
  simp only [Kind.isNeutral, Bool.and_eq_true, Bool.not_eq_true'] at neutral
  simp [height?, neutral]

namespace Climbs

theorem append (first : Climbs n cs m) (second : Climbs m ds k) : Climbs n (cs ++ ds) k := by
  induction first with
  | nil => exact second
  | quiet quiet rest ih => exact .quiet quiet (ih second)
  | opening opener rest ih => exact .opening opener (ih second)
  | closing closer rest ih => exact .closing closer (ih second)
  | string unquoted unescaped rest ih =>
    rw [List.cons_append, List.append_assoc, List.cons_append]
    exact .string unquoted unescaped (ih second)

theorem of_quiet (quiet : ∀ c ∈ cs, Quiet c) : Climbs n cs n := by
  induction cs with
  | nil => exact .nil
  | cons c cs ih =>
    obtain ⟨first, others⟩ := List.forall_mem_cons.mp quiet
    exact .quiet first (ih others)

theorem unarrowed (climbs : Climbs n cs m) : cs.head? ≠ some '>' := by
  intro first
  cases climbs with
  | nil => cases first
  | quiet quiet rest =>
    cases first
    revert quiet
    decide
  | opening opener rest | closing closer rest =>
    cases first
    simp at *
  | string => cases first

/-- What is no operator by itself is none with what stands behind it. -/
theorem alone (climbs : Climbs n cs m) (other : c ∉ operatorStarts) :
    pairKind? c cs.head? = none := by
  by_cases hyphen : c = '-'
  · subst hyphen
    exact pairKind?_hyphen climbs.unarrowed
  · refine pairKind?_of_other (fun starts => ?_) _
    have all : pairStarts.all (fun d => d == '-' || operatorStarts.contains d) = true := by decide
    have start : c = '-' ∨ c ∈ operatorStarts := by simpa using List.all_eq_true.mp all c starts
    exact start.elim hyphen other

theorem dropWhile_isBlank (climbs : Climbs n cs m) : Climbs n (cs.dropWhile Text.isBlank) m := by
  induction climbs with
  | nil => exact .nil
  | quiet quiet rest ih =>
    rw [List.dropWhile_cons]
    split
    · exact ih
    · exact .quiet quiet rest
  | opening opener rest =>
    rcases opener with rfl | rfl
    · exact .opening (.inl rfl) rest
    · exact .opening (.inr rfl) rest
  | closing closer rest =>
    rcases closer with rfl | rfl
    · exact .closing (.inl rfl) rest
    · exact .closing (.inr rfl) rest
  | string unquoted unescaped rest => exact .string unquoted unescaped rest

theorem drop_wordLength (climbs : Climbs n cs m) : Climbs n (cs.drop (wordLength cs)) m := by
  induction climbs with
  | nil => exact .nil
  | quiet quiet rest ih =>
    rw [wordLength]
    split
    · exact .quiet quiet rest
    · exact ih
  | opening opener rest =>
    rcases opener with rfl | rfl
    · exact .opening (.inl rfl) rest
    · exact .opening (.inr rfl) rest
  | closing closer rest =>
    rcases closer with rfl | rfl
    · exact .closing (.inl rfl) rest
    · exact .closing (.inr rfl) rest
  | string unquoted unescaped rest => exact .string unquoted unescaped rest

/-- The token with which a text begins, and the number of open brackets behind it. -/
theorem token (climbs : Climbs n (c :: cs) m) : ∃ kind length k,
    extent? c cs = some (kind, length) ∧ Climbs k (cs.drop length) m ∧
      ∀ (t : Token) ts, t.kind = kind →
        height? Kind.isOpener Kind.isCloser n (t :: ts) = height? Kind.isOpener Kind.isCloser k ts := by
  cases climbs with
  | quiet quiet rest =>
    have alone := rest.alone quiet.2.1
    cases single : singleKind? c with
    | none =>
      refine ⟨_, _, n, extent?_eq_some.mpr (.word quiet.1 alone single), rest.drop_wordLength, ?_⟩
      intro t ts word
      exact height?_neutral (by rw [word]; rfl)
    | some kind =>
      refine ⟨_, _, n, extent?_eq_some.mpr (.single quiet.1 alone single), rest, ?_⟩
      rintro t ts rfl
      exact height?_neutral (neutral_of_quiet quiet single)
  | opening opener rest =>
    have alone : pairKind? c cs.head? = none := rest.alone (by rcases opener with rfl | rfl <;> decide)
    rcases opener with rfl | rfl
    · refine ⟨.leftBracket, 0, n + 1, extent?_eq_some.mpr (.single rfl alone rfl), rest, ?_⟩
      intro t ts same
      simp [height?, same, Kind.isOpener]
    · refine ⟨.leftBrace, 0, n + 1, extent?_eq_some.mpr (.single rfl alone rfl), rest, ?_⟩
      intro t ts same
      simp [height?, same, Kind.isOpener]
  | @closing m k _ _ closer rest =>
    have alone : pairKind? c cs.head? = none := rest.alone (by rcases closer with rfl | rfl <;> decide)
    rcases closer with rfl | rfl
    · refine ⟨.rightBracket, 0, k, extent?_eq_some.mpr (.single rfl alone rfl), rest, ?_⟩
      intro t ts same
      simp [height?, same, Kind.isOpener, Kind.isCloser]
    · refine ⟨.rightBrace, 0, k, extent?_eq_some.mpr (.single rfl alone rfl), rest, ?_⟩
      intro t ts same
      simp [height?, same, Kind.isOpener, Kind.isCloser]
  | @string _ _ s cs unquoted unescaped rest =>
    have closed : s.getLast?.getD '"' ≠ '\\' := by
      cases last : s.getLast? with
      | none => decide
      | some d =>
        rintro rfl
        exact unescaped (List.mem_of_getLast? last)
    refine ⟨.string, s.length + 1, n, extent?_eq_some.mpr (.string rfl ?_), ?_, ?_⟩
    · exact quotedLength?_of_unquoted cs unquoted closed
    · simpa using rest
    · intro t ts same
      exact height?_neutral (by rw [same]; rfl)

/-- The lexer gets through, and its tokens have the brackets that the characters show. -/
theorem lex (climbs : Climbs n cs m) (position : Nat) : ∃ lexed, lex position cs = .ok lexed ∧
    height? Kind.isOpener Kind.isCloser n lexed.tokens = some m := by
  induction position, cs using lex.induct generalizing n m with
  | case1 position cs nothing =>
    have inner := climbs.dropWhile_isBlank
    rw [nothing] at inner
    cases inner
    rw [Expression.lex]
    split
    · exact ⟨_, rfl, rfl⟩
    · rename_i found
      cases nothing.symm.trans found
  | case2 position cs c more found endless =>
    have inner := climbs.dropWhile_isBlank
    rw [found] at inner
    obtain ⟨kind, length, k, extent, -⟩ := inner.token
    cases endless.symm.trans extent
  | case3 position cs gap c more found kind length extent =>
    rename_i ih
    have inner := climbs.dropWhile_isBlank
    rw [found] at inner
    obtain ⟨kind', length', k, extent', rest, step⟩ := inner.token
    cases extent.symm.trans extent'
    obtain ⟨lexed, read, within⟩ := ih rest
    rw [Expression.lex]
    split
    · rename_i nothing
      cases nothing.symm.trans found
    · rename_i found'
      cases found.symm.trans found'
      rw [extent]
      dsimp only
      rw [read]
      exact ⟨_, rfl, (step _ _ rfl).trans within⟩

end Climbs

end Walkthrough.Expression
