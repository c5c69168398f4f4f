import Walkthrough.Proofs.Expression.Printing
import Walkthrough.Proofs.Expression.Grouping
import Walkthrough.Proofs.Expression.Renaming

/-! Operators between texts in parentheses. Each text keeps its own tokens and its own tree,
whatever it contains, so the value of the whole is made of the values of the texts. -/
namespace Walkthrough.Expression

section Compound

variable {a b c : String} {as bs cs : List Token} {tailA tailB tailC : List Char}

theorem IsWord.spells {s : String} (word : IsWord s) :
    Spells s.toList [⟨.word, [], s.toList⟩] [] :=
  spells_of_read word (.cons rfl .nil) (List.cons_ne_nil _ _)

theorem Quotable.spells {s : String} (quotable : Quotable s) :
    Spells (quoted s) [⟨.string, [], quoted s⟩] [] where
  covers := by simp
  legible := (written_quoted quotable rfl).legible [] apart_nil
  blank := rfl
  nested := .cons rfl .nil
  solid := List.cons_ne_nil _ _

/-- A text in parentheses. -/
def inParens (text : String) : List Char := '(' :: text.toList ++ [')']

/-- Whatever a text contains, in parentheses it is read as it is read alone. -/
theorem Spells.reads_inParens (inner : Spells a.toList as tailA) :
    Reads 8 (inParens a) (disjunction as) := by
  intro gap blank
  have covers : textBehind (Wrapper.parens.tokens gap as tailA) = gap ++ inParens a :=
    Wrapper.textBehind_tokens inner
  exact ⟨_, ⟨⟨_, _, rfl, by decide, by decide⟩, covers, fun rest _ =>
    Wrapper.legible_tokens inner blank rest⟩, Wrapper.holds_tokens inner, Wrapper.readAt_tokens inner 8⟩

theorem Spells.reads_only {n : Nat} (inner : Spells a.toList as tailA) (le : n ≤ 8) :
    ∀ x ∈ [disjunction as], Reads n (inParens a) x :=
  List.forall_mem_singleton.mpr (inner.reads_inParens.mono le)

theorem parse_either (left : Spells a.toList as tailA) (right : Spells b.toList bs tailB) :
    parse ("(" ++ a ++ ") || (" ++ b ++ ")") = (Expr.either (disjunction as) [disjunction bs]).checked := by
  have reads := Reads.either (List.cons_ne_nil _ _) (left.reads_inParens.mono (by decide))
    (right.reads_only (by decide))
  exact reads.parse_eq (by simp [inParens, spaced, Kind.sign])

theorem parse_both (left : Spells a.toList as tailA) (right : Spells b.toList bs tailB) :
    parse ("(" ++ a ++ ") && (" ++ b ++ ")") = (Expr.both (disjunction as) [disjunction bs]).checked := by
  have reads := Reads.both (List.cons_ne_nil _ _) (left.reads_inParens.mono (by decide))
    (right.reads_only (by decide))
  exact reads.parse_eq (by simp [inParens, spaced, Kind.sign])

theorem parse_concat (left : Spells a.toList as tailA) (right : Spells b.toList bs tailB) :
    parse ("(" ++ a ++ ") + (" ++ b ++ ")") = (Expr.concat [disjunction as, disjunction bs]).checked := by
  have reads := Reads.concat (List.cons_ne_nil _ _) (left.reads_inParens.mono (by decide))
    (right.reads_only (by decide))
  exact reads.parse_eq (by simp [inParens, spaced, Kind.sign])

theorem parse_not (inner : Spells a.toList as tailA) :
    parse ("!(" ++ a ++ ")") = (Expr.not (disjunction as)).checked := by
  have reads := Reads.not (inner.reads_inParens.mono (by decide))
  exact reads.parse_eq (by simp [inParens])

theorem parse_choose (condition : Spells a.toList as tailA) (yes : Spells b.toList bs tailB)
    (no : Spells c.toList cs tailC) :
    parse ("(" ++ a ++ ")?then((" ++ b ++ "), (" ++ c ++ "))") =
      (Expr.choose (disjunction as) (disjunction bs) (disjunction cs)).checked := by
  have reads := Reads.choose (condition.reads_inParens.mono (by decide))
    (yes.reads_inParens.mono (by decide)) (no.reads_inParens.mono (by decide))
  exact reads.parse_eq (by simp [inParens])

end Compound

section Values

variable (a b c : Expr) (context : Data)

theorem value_of_yields {e : Expr} {r : Except Fault Data}
    (yields : Yields (context.labelled 0).2 settled (e.eval (context.labelled 0).1) r) :
    e.value context = r := yields.run _ (Nat.le_refl _)

theorem value_either : (Expr.either a [b]).value context = do
    let v ← a.value context
    let w ← b.value context
    return if ← v.truth then v else w := by
  apply value_of_yields
  simp only [Expr.eval, evalAll, firstTrue, bind_assoc, pure_bind]
  refine (a.eval_yields context).bind fun v => (b.eval_yields context).bind fun w =>
    (Yields.isTrue v).bind fun t => ?_
  cases t with
  | true => exact .pure v
  | false => exact .pure w

theorem value_both : (Expr.both a [b]).value context = do
    let v ← a.value context
    let w ← b.value context
    return if ← v.truth then w else v := by
  apply value_of_yields
  simp only [Expr.eval, evalAll, firstFalse, bind_assoc, pure_bind]
  refine (a.eval_yields context).bind fun v => (b.eval_yields context).bind fun w =>
    (Yields.isTrue v).bind fun t => ?_
  cases t with
  | true => exact .pure w
  | false => exact .pure v

theorem value_not : (Expr.not a).value context = do
    let v ← a.value context
    return .bool (!(← v.truth)) := by
  apply value_of_yields
  exact (a.eval_yields context).bind fun v => (Yields.isTrue v).bind fun t => .pure (Value.bool !t)

theorem value_concat : (Expr.concat [a, b]).value context = do
    let v ← a.value context
    let first ← v.display
    let w ← b.value context
    let second ← w.display
    return .text (first ++ second) := by
  apply value_of_yields
  simp only [Expr.eval, evalTexts, bind_assoc, pure_bind]
  refine (a.eval_yields context).bind fun v => (Yields.display v).bind fun first =>
    (b.eval_yields context).bind fun w => (Yields.display w).bind fun second => ?_
  have joint : "".intercalate [first, second] = first ++ second := by
    simp [String.intercalate_cons_cons]
  rw [joint]
  exact .pure (Value.text (first ++ second))

theorem value_choose : (Expr.choose a b c).value context = (do
    let v ← a.value context
    if ← v.truth then b.value context else c.value context) := by
  apply value_of_yields
  refine (a.eval_yields context).bind fun v => (Yields.isTrue v).bind fun t => ?_
  cases t with
  | true => exact b.eval_yields context
  | false => exact c.eval_yields context

end Values

/-- A text can be read: it divides into tokens, and no numeral in it has too many digits. -/
def readText (text : String) : Except (Option Fault) Unit :=
  ((parse text).mapError ParseError.cause).map fun _ => ()

/-- The truth of a value, or why it has none. -/
def truly (v : Data) : Except (Option Fault) Bool := v.truth.mapError some

/-- A value as part of a text, or why it is none. -/
def shown (v : Data) : Except (Option Fault) String := v.display.mapError some

theorem mapError_bind {ε ε' α β : Type} (f : ε → ε') (x : Except ε α) (next : α → Except ε β) :
    (x >>= next).mapError f = x.mapError f >>= fun a => (next a).mapError f := by
  cases x <;> rfl

section Outcomes

variable {text a b c : String} {as bs cs : List Token} {tailA tailB tailC : List Char}
  (context : Data)

theorem Spells.outcome_eq (spells : Spells a.toList as tailA) :
    outcome a context = ((disjunction as).outcome context).mapError some :=
  outcome_of_parse spells.solid_text spells.parse_eq context

theorem Spells.readText_eq (spells : Spells a.toList as tailA) :
    readText a = if (disjunction as).readable then .ok () else .error (some .tooManyDigits) := by
  rw [readText, spells.parse_eq, Expr.checked]
  split <;> rfl

theorem outcome_of_front {e : Expr} (d : Char) (front : text.toList.head? = some d)
    (ink : Text.isBlank d = false) (parsed : parse text = e.checked) :
    outcome text context = (e.outcome context).mapError some := by
  refine outcome_of_parse ?_ parsed context
  obtain ⟨more, same⟩ := List.head?_eq_some_iff.mp front
  rw [same, Text.allBlank, List.all_cons, ink, Bool.false_and]

theorem outcome_either (left : Spells a.toList as tailA) (right : Spells b.toList bs tailB) :
    outcome ("(" ++ a ++ ") || (" ++ b ++ ")") context = do
      readText b
      let v ← outcome a context
      let w ← outcome b context
      return if ← truly v then v else w := by
  rw [outcome_of_front context '(' (by simp) rfl (parse_either left right), left.outcome_eq,
    right.outcome_eq, right.readText_eq]
  simp only [Expr.outcome, Expr.readable, allReadable, Bool.and_true, value_either]
  cases (disjunction as).readable <;> cases (disjunction bs).readable
  case true.true =>
    simp only [Bool.and_self, ↓reduceIte, mapError_bind, truly]
    rfl
  all_goals rfl

theorem outcome_both (left : Spells a.toList as tailA) (right : Spells b.toList bs tailB) :
    outcome ("(" ++ a ++ ") && (" ++ b ++ ")") context = do
      readText b
      let v ← outcome a context
      let w ← outcome b context
      return if ← truly v then w else v := by
  rw [outcome_of_front context '(' (by simp) rfl (parse_both left right), left.outcome_eq,
    right.outcome_eq, right.readText_eq]
  simp only [Expr.outcome, Expr.readable, allReadable, Bool.and_true, value_both]
  cases (disjunction as).readable <;> cases (disjunction bs).readable
  case true.true =>
    simp only [Bool.and_self, ↓reduceIte, mapError_bind, truly]
    rfl
  all_goals rfl

theorem outcome_not (inner : Spells a.toList as tailA) :
    outcome ("!(" ++ a ++ ")") context = do
      let v ← outcome a context
      return .bool (!(← truly v)) := by
  rw [outcome_of_front context '!' (by simp) rfl (parse_not inner), inner.outcome_eq]
  simp only [Expr.outcome, Expr.readable, value_not]
  cases (disjunction as).readable
  case true =>
    simp only [↓reduceIte, mapError_bind, truly]
    rfl
  all_goals rfl

theorem outcome_concat (left : Spells a.toList as tailA) (right : Spells b.toList bs tailB) :
    outcome ("(" ++ a ++ ") + (" ++ b ++ ")") context = do
      readText b
      let v ← outcome a context
      let first ← shown v
      let w ← outcome b context
      let second ← shown w
      return .text (first ++ second) := by
  rw [outcome_of_front context '(' (by simp) rfl (parse_concat left right), left.outcome_eq,
    right.outcome_eq, right.readText_eq]
  simp only [Expr.outcome, Expr.readable, allReadable, Bool.and_true, value_concat]
  cases (disjunction as).readable <;> cases (disjunction bs).readable
  case true.true =>
    simp only [Bool.and_self, ↓reduceIte, mapError_bind, shown]
    rfl
  all_goals rfl

theorem outcome_choose (condition : Spells a.toList as tailA) (yes : Spells b.toList bs tailB)
    (no : Spells c.toList cs tailC) :
    outcome ("(" ++ a ++ ")?then((" ++ b ++ "), (" ++ c ++ "))") context = (do
      readText b
      readText c
      let v ← outcome a context
      if ← truly v then outcome b context else outcome c context) := by
  rw [outcome_of_front context '(' (by simp) rfl (parse_choose condition yes no),
    condition.outcome_eq, yes.outcome_eq, no.outcome_eq, yes.readText_eq, no.readText_eq]
  simp only [Expr.outcome, Expr.readable, value_choose]
  cases (disjunction as).readable <;> cases (disjunction bs).readable <;>
    cases (disjunction cs).readable
  case true.true.true =>
    simp only [Bool.and_self, ↓reduceIte, mapError_bind, truly, apply_ite (Except.mapError some)]
    rfl
  all_goals rfl

end Outcomes

/-- Operators between texts in parentheses join the values of the texts, once all of them have been
read. Both sides of an operator are always evaluated, and fail the whole if they fail; of two branches
only the one taken is evaluated, but the other one must be readable as well. -/
theorem outcome_compound {a b c : String} (first : Admissible a) (second : Admissible b)
    (third : Admissible c) (context : Data) :
    outcome ("(" ++ a ++ ") || (" ++ b ++ ")") context = (do
      readText b
      let v ← outcome a context
      let w ← outcome b context
      return if ← truly v then v else w) ∧
    outcome ("(" ++ a ++ ") && (" ++ b ++ ")") context = (do
      readText b
      let v ← outcome a context
      let w ← outcome b context
      return if ← truly v then w else v) ∧
    outcome ("!(" ++ a ++ ")") context = (do
      let v ← outcome a context
      return .bool (!(← truly v))) ∧
    outcome ("(" ++ a ++ ") + (" ++ b ++ ")") context = (do
      readText b
      let v ← outcome a context
      let first ← shown v
      let w ← outcome b context
      let second ← shown w
      return .text (first ++ second)) ∧
    outcome ("(" ++ a ++ ")?then((" ++ b ++ "), (" ++ c ++ "))") context = (do
      readText b
      readText c
      let v ← outcome a context
      if ← truly v then outcome b context else outcome c context) := by
  obtain ⟨as, tailA, spellsA⟩ := first.spells
  obtain ⟨bs, tailB, spellsB⟩ := second.spells
  obtain ⟨cs, tailC, spellsC⟩ := third.spells
  exact ⟨outcome_either context spellsA spellsB, outcome_both context spellsA spellsB,
    outcome_not context spellsA, outcome_concat context spellsA spellsB,
    outcome_choose context spellsA spellsB spellsC⟩

theorem outcome_compound_mixed :
    let a := "list?join(' ) ') || x?then(y, 'no')"
    let b := " big > 1, : ??"
    let c := "$\x7bname\x7d + [ \"&&\" ]  "
    let S := fun text => outcome text (.emptyMap)
    S ("(" ++ a ++ ") || (" ++ b ++ ")") = (do
      readText b
      let v ← S a
      let w ← S b
      return if ← truly v then v else w) ∧
    S ("(" ++ a ++ ") && (" ++ b ++ ")") = (do
      readText b
      let v ← S a
      let w ← S b
      return if ← truly v then w else v) ∧
    S ("!(" ++ a ++ ")") = (do
      let v ← S a
      return .bool (!(← truly v))) ∧
    S ("(" ++ a ++ ") + (" ++ b ++ ")") = (do
      readText b
      let v ← S a
      let first ← shown v
      let w ← S b
      let second ← shown w
      return .text (first ++ second)) ∧
    S ("(" ++ a ++ ")?then((" ++ b ++ "), (" ++ c ++ "))") = (do
      readText b
      readText c
      let v ← S a
      if ← truly v then S b else S c) :=
  outcome_compound (by decide +kernel) (by decide +kernel) (by decide +kernel) .emptyMap

/-- A numeral that cannot be read keeps the other branch from being evaluated. -/
theorem outcome_of_unreadable_branch :
    let c := String.ofList Numeral.paddedOne
    Admissible "true" ∧ Admissible "'x'" ∧ Admissible c ∧
      outcome "true" .emptyMap = .ok (.bool true) ∧ outcome "'x'" .emptyMap = .ok (.text "x") ∧
      outcome ("(" ++ "true" ++ ")?then((" ++ "'x'" ++ "), (" ++ c ++ "))") .emptyMap =
        .error (some .tooManyDigits) := by
  intro c
  have word : IsWord "true" := by decide +kernel
  have yes : Spells "'x'".toList [⟨.string, [], "'x'".toList⟩] [] :=
    Quotable.spells (s := "x") (by decide)
  have no : Spells c.toList _ [] := isWord_paddedOne.spells
  have unread : readText c = .error (some .tooManyDigits) := by
    rw [no.readText_eq, disjunction_leaf (.inl rfl), String.toList_ofList, leaf_paddedOne]
    rfl
  have condition : outcome "true" .emptyMap = .ok (.bool true) := by
    rw [word.spells.outcome_eq, disjunction_leaf (.inl rfl), leaf_of_word word (by decide)]
    rfl
  have taken : outcome "'x'" .emptyMap = .ok (.text "x") := by
    rw [yes.outcome_eq, disjunction_leaf (.inr rfl)]
    rfl
  refine ⟨by decide +kernel, by decide +kernel, ?_, condition, taken, ?_⟩
  · exact admissible_iff.mpr ⟨no.solid_text, _, isWord_paddedOne, .cons rfl .nil⟩
  · rw [outcome_choose .emptyMap word.spells yes no, unread, yes.readText_eq,
      disjunction_leaf (.inr rfl)]
    rfl

end Walkthrough.Expression
