import Walkthrough.Proofs.Expression.Literal
import Walkthrough.Proofs.Expression.Lookup

/-! Whatever a word leads to is equal to itself. Containers are equal only when they are one, but a
word makes none: it finds the same value of the context on either side of an operator. -/
namespace Walkthrough

theorem Instant.same_self (t : Instant) : t.same t = true := by simp [same]

theorem Scalar.looseEquals_self {s : Scalar} (number : s ≠ .number .nan) :
    s.looseEquals s = .ok true := by
  cases s with
  | number n =>
    refine congrArg Except.ok (Number.equals_self ?_)
    cases n with
    | int n => rfl
    | double d =>
      cases d with
      | nan => exact absurd rfl number
      | ranked => exact Number.isNaN_double _
  | bool b => cases b <;> decide +kernel
  | instant t => exact congrArg Except.ok t.same_self
  | null | missing | text | date => simp [looseEquals]

theorem Value.looseEquals_self {ι : Type} {same : ι → ι → Bool} {v : Value ι}
    (reflexive : ∀ x, same x x = true) (number : v ≠ .double .nan) :
    v.looseEquals same v = .ok true := by
  cases v with
  | atom s =>
    have equal := Scalar.looseEquals_self fun nan => number (congrArg Value.atom nan)
    cases s with
    | null | missing => rfl
    | _ => exact equal
  | list label | map label => exact congrArg Except.ok (reflexive label)

namespace Expression

variable {p : String} {e : Expr} {context v : Data}

theorem leaf_cases (cs : List Char) :
    (∃ s, leaf cs = .literal s) ∨ leaf cs = .path (String.ofList cs) ∨
      leaf cs = .unread (String.ofList cs) := by
  unfold leaf
  repeat' split
  all_goals simp

/-- A word asks for no label. -/
theorem eval_leaf (cs : List Char) (context : Result) :
    ∃ r : Except Fault Result, (leaf cs).eval context = liftM r := by
  obtain ⟨s, literal⟩ | path | unread := leaf_cases cs
  · rw [literal]
    exact ⟨.ok (.atom s), rfl⟩
  · rw [path]
    exact ⟨resolve (String.ofList cs) context, rfl⟩
  · rw [unread]
    exact ⟨.error .tooManyDigits, rfl⟩

theorem value_of_still {r : Except Fault Result} (still : e.eval (context.labelled 0).1 = liftM r) :
    e.value context = r.map settled := by
  rw [Expr.value_eq, still]
  cases r <;> rfl

/-- Both sides come to the same value, and if it is a container it is the same one. -/
theorem value_compare_self {r : Except Fault Result}
    (still : e.eval (context.labelled 0).1 = liftM r) (found : e.value context = .ok v)
    (number : v ≠ .double .nan) :
    (Expr.compare .equal e e).value context = .ok (.bool true) ∧
      (Expr.compare .unequal e e).value context = .ok (.bool false) := by
  rw [value_of_still still] at found
  cases r with
  | error => cases found
  | ok w =>
    have settles : settled w = v := Except.ok.inj found
    have same : w.looseEquals sameLabel w = .ok true := by
      refine Value.looseEquals_self (fun label => beq_self_eq_true label) ?_
      rintro rfl
      exact number settles.symm
    have still : e.eval (context.labelled 0).1 = pure w := still
    constructor <;> rw [Expr.value_eq, Expr.eval, still, pure_bind, pure_bind, compareValues, same] <;>
      rfl

theorem reads_compare_self (op : String) (word : IsWord p) (c : Comparison)
    (spelled : op.toList = spaced c.kind []) :
    Reads c.rank (p ++ op ++ p).toList (.compare c (leaf p.toList) (leaf p.toList)) := by
  have side : Reads (c.rank + 1) p.toList (leaf p.toList) :=
    (Reads.word word).mono (by cases c <;> simp [Comparison.rank])
  have text : (p ++ op ++ p).toList = p.toList ++ spaced c.kind p.toList := by simp [spelled, spaced]
  rw [text]
  exact side.compare c side

theorem evaluateStrict_self (word : IsWord p) (found : evaluateStrict p context = .ok v)
    (number : v ≠ .double .nan) :
    evaluateStrict (p ++ " == " ++ p) context = .ok (.bool true) ∧
      evaluateStrict (p ++ " != " ++ p) context = .ok (.bool false) := by
  obtain ⟨r, still⟩ := eval_leaf p.toList (context.labelled 0).1
  rw [(Reads.word word).evaluateStrict_eq, mapError_eq_ok, Expr.outcome_eq_ok] at found
  obtain ⟨readable, value⟩ := found
  obtain ⟨equal, unequal⟩ := value_compare_self still value number
  have one := reads_compare_self " == " word .equal rfl
  have other := reads_compare_self " != " word .unequal rfl
  have both (c : Comparison) :
      (Expr.compare c (leaf p.toList) (leaf p.toList)).readable = true := by
    simp [Expr.readable, readable]
  rw [one.evaluateStrict_eq, other.evaluateStrict_eq, Expr.outcome_of_readable (both _),
    Expr.outcome_of_readable (both _), equal, unequal]
  exact ⟨rfl, rfl⟩

theorem evaluate_self (p : String) (context v : Data) (word : IsWord p)
    (found : evaluateStrict p (if context.isVoid then .emptyMap else context) = .ok v)
    (number : v ≠ .double .nan) :
    evaluate (.text (p ++ " == " ++ p)) context = .bool true ∧
      evaluate (.text (p ++ " != " ++ p)) context = .bool false := by
  obtain ⟨equal, unequal⟩ := evaluateStrict_self word found number
  simp [evaluate, evaluateText, equal, unequal]

theorem evaluate_self_list :
    let tags : Data := .ofList [.text "new"]
    let context : Data := .ofEntries [(.text "replies", .ofEntries [(.text "tags", tags)])]
    IsWord "replies.tags" ∧ evaluateStrict "replies.tags" context = .ok tags ∧
      evaluate (.text "replies.tags == replies.tags") context = .bool true ∧
      evaluate (.text "replies.tags != replies.tags") context = .bool false := by
  intro tags context
  have word : IsWord "replies.tags" := by decide
  have found : evaluateStrict "replies.tags" context = .ok tags := by
    rw [(Reads.word word).evaluateStrict_eq, leaf_of_path word (by decide) (by decide),
      Expr.outcome_of_readable rfl, value_path]
    rfl
  exact ⟨word, found, evaluate_self "replies.tags" context tags word found nofun⟩

end Expression

end Walkthrough
