import Mathlib.Data.String.Basic
import Walkthrough.Proofs.Attempt
import Walkthrough.Value.Equality

/-! The relational operators. An order of two operands is the reverse of their order the other way
round, and an operator only reads the order off; so operators that are each other's converse agree,
and at most one of less, greater and alike is the case. -/
namespace Walkthrough

theorem Position.order_swap (p q : Position) : (p.order q).swap = q.order p := by
  rw [Position.order, Position.order, Ordering.swap_then, ← Std.OrientedOrd.eq_swap,
    ← Std.OrientedOrd.eq_swap]

theorem Number.order?_swap (m n : Number) : (m.order? n).map Ordering.swap = n.order? m := by
  unfold Number.order?
  cases m.position? <;> cases n.position? <;> simp [Position.order_swap]

theorem Number.order?_eq_none_iff {m n : Number} :
    m.order? n = none ↔ m.isNaN = true ∨ n.isNaN = true := by
  unfold Number.order? Number.isNaN
  cases m.position? <;> cases n.position? <;> simp

def Relation.symbol : Relation → String
  | .less => "<"
  | .greater => ">"
  | .atMost => "<="
  | .atLeast => ">="

theorem Relation.ofText?_symbol (r : Relation) : Relation.ofText? r.symbol = some r := by
  cases r <;> rfl

def Relation.converse : Relation → Relation
  | .less => .greater
  | .greater => .less
  | .atMost => .atLeast
  | .atLeast => .atMost

theorem Relation.holds_swap (r : Relation) (o : Ordering) : r.converse.holds o.swap = r.holds o := by
  cases r <;> cases o <;> rfl

theorem Relation.exists_holds (o : Ordering) : ∃ r : Relation, r.holds o = true := by
  cases o
  · exact ⟨.less, rfl⟩
  · exact ⟨.atMost, rfl⟩
  · exact ⟨.greater, rfl⟩

namespace Scalar

variable {s t : Scalar} {o o' : Option Ordering}

def IsNaN (s : Scalar) : Prop := ∃ n, s.toNumber = .ok n ∧ n.isNaN = true

/-- There is no order where a number is needed and is not one. -/
def Unordered (s t : Scalar) : Prop :=
  ¬((∃ text, s = .text text) ∧ ∃ text, t = .text text) ∧ (s.IsNaN ∨ t.IsNaN)

/-- Two texts have their own order, all else has the order of numbers. -/
theorem order_cases (ordered : s.order t = .ok o) :
    (∃ a b, s = .text a ∧ t = .text b ∧ o = some (compare a b)) ∨
      ¬((∃ text, s = .text text) ∧ ∃ text, t = .text text) ∧
        ∃ m n, s.toNumber = .ok m ∧ t.toNumber = .ok n ∧ o = m.order? n := by
  unfold Scalar.order at ordered
  split at ordered
  · rename_i a b
    cases ordered
    exact .inl ⟨a, b, rfl, rfl, rfl⟩
  · rename_i other
    refine .inr ⟨fun ⟨⟨a, one⟩, b, two⟩ => other a b one two, ?_⟩
    obtain ⟨m, first, ordered⟩ := bind_eq_ok.mp ordered
    obtain ⟨n, second, ordered⟩ := bind_eq_ok.mp ordered
    refine ⟨m, n, first, second, ?_⟩
    split_ifs at ordered
    exact (Except.ok.inj ordered).symm

theorem order_swap (forth : s.order t = .ok o) (back : t.order s = .ok o') :
    o.map Ordering.swap = o' := by
  rcases order_cases forth with ⟨a, b, rfl, rfl, rfl⟩ | ⟨mixed, m, n, first, second, rfl⟩
  · cases back
    exact congrArg some Std.OrientedOrd.eq_swap.symm
  · rcases order_cases back with ⟨b, a, rfl, rfl, rfl⟩ | ⟨-, n', m', second', first', rfl⟩
    · exact absurd ⟨⟨a, rfl⟩, b, rfl⟩ mixed
    · cases first.symm.trans first'
      cases second.symm.trans second'
      exact m.order?_swap n

theorem order_eq_none_iff (ordered : s.order t = .ok o) : o = none ↔ s.Unordered t := by
  rcases order_cases ordered with ⟨a, b, rfl, rfl, rfl⟩ | ⟨mixed, m, n, first, second, rfl⟩
  · exact iff_of_false nofun fun unordered => unordered.1 ⟨⟨a, rfl⟩, b, rfl⟩
  · simp [Number.order?_eq_none_iff, Unordered, mixed, IsNaN, first, second]

end Scalar

namespace Value

variable {ι : Type} {a b : Value ι} {f g : Relation → Bool}

/-- What the values reduce to has no order. -/
def Unordered (a b : Value ι) : Prop :=
  ∃ s t, a.primitive = .ok s ∧ b.primitive = .ok t ∧ s.Unordered t

/-- What two values reduce to has this order, if it has one. -/
def Ordered (a b : Value ι) (o : Option Ordering) : Prop :=
  ∃ s t, a.primitive = .ok s ∧ b.primitive = .ok t ∧ s.order t = .ok o

theorem exists_ordered {r : Relation} {v : Bool} (answers : a.compareBy r.symbol b = .ok v) :
    ∃ o, a.Ordered b o ∧ o.elim false r.holds = v := by
  unfold Value.compareBy at answers
  obtain ⟨s, first, answers⟩ := bind_eq_ok.mp answers
  obtain ⟨t, second, answers⟩ := bind_eq_ok.mp answers
  obtain ⟨o, order, answers⟩ := bind_eq_ok.mp answers
  refine ⟨o, ⟨s, t, mapError_eq_ok.mp first, mapError_eq_ok.mp second, mapError_eq_ok.mp order⟩, ?_⟩
  cases o with
  | none => exact Except.ok.inj answers
  | some o =>
    simp only [Relation.ofText?_symbol] at answers
    exact Except.ok.inj answers

theorem Ordered.unique {o o' : Option Ordering} (ordered : a.Ordered b o)
    (ordered' : a.Ordered b o') : o = o' := by
  obtain ⟨s, t, first, second, order⟩ := ordered
  obtain ⟨s', t', first', second', order'⟩ := ordered'
  cases first.symm.trans first'
  cases second.symm.trans second'
  exact Except.ok.inj (order.symm.trans order')

theorem Ordered.swap {o o' : Option Ordering} (forth : a.Ordered b o) (back : b.Ordered a o') :
    o.map Ordering.swap = o' := by
  obtain ⟨s, t, first, second, order⟩ := forth
  obtain ⟨t', s', second', first', order'⟩ := back
  cases first.symm.trans first'
  cases second.symm.trans second'
  exact Scalar.order_swap order order'

theorem Ordered.eq_none_iff {o : Option Ordering} (ordered : a.Ordered b o) :
    o = none ↔ a.Unordered b := by
  obtain ⟨s, t, first, second, order⟩ := ordered
  simp [Scalar.order_eq_none_iff order, Unordered, first, second]

/-- All operators read off one order. -/
theorem exists_ordered_of_all (answers : ∀ r, a.compareBy r.symbol b = .ok (f r)) :
    ∃ o, a.Ordered b o ∧ ∀ r, f r = o.elim false r.holds := by
  obtain ⟨o, ordered, -⟩ := exists_ordered (answers .less)
  refine ⟨o, ordered, fun r => ?_⟩
  obtain ⟨o', ordered', value⟩ := exists_ordered (answers r)
  cases ordered.unique ordered'
  exact value.symm

/-- Converse operators agree. Without an order no operator holds; with one, exactly one of less,
greater and both of the others does, and each of the others denies one of the first two. -/
theorem compare_consistent (forth : ∀ r, a.compareBy r.symbol b = .ok (f r))
    (back : ∀ r, b.compareBy r.symbol a = .ok (g r)) :
    (∀ r, f r = g r.converse) ∧
      ((∀ r, f r = false) ↔ a.Unordered b) ∧
      (¬a.Unordered b →
        [f .less, f .greater, f .atMost && f .atLeast].count true = 1 ∧
          f .atMost = !f .greater ∧ f .atLeast = !f .less) := by
  obtain ⟨o, ordered, value⟩ := exists_ordered_of_all forth
  obtain ⟨o', ordered', value'⟩ := exists_ordered_of_all back
  obtain rfl := ordered.swap ordered'
  refine ⟨fun r => ?_, ?_, fun comparable => ?_⟩
  · rw [value, value']
    cases o with
    | none => rfl
    | some o => exact (r.holds_swap o).symm
  · rw [← ordered.eq_none_iff]
    constructor
    · intro nowhere
      by_contra comparable
      obtain ⟨o, rfl⟩ := Option.ne_none_iff_exists'.mp comparable
      obtain ⟨r, holds⟩ := Relation.exists_holds o
      rw [← Option.elim_some false r.holds o, ← value, nowhere] at holds
      cases holds
    · rintro rfl r
      exact value r
  · rw [← ordered.eq_none_iff] at comparable
    obtain ⟨o, rfl⟩ := Option.ne_none_iff_exists'.mp comparable
    simp only [value, Option.elim_some]
    cases o <;> decide

theorem compare_consistent_list :
    let a : Data := .ofList [.ofList [.text " 10"]]
    let b : Data := .bool true
    let f : Relation → Bool := fun r => r.holds .gt
    let g : Relation → Bool := fun r => r.holds .lt
    (∀ r, a.compareBy r.symbol b = .ok (f r)) ∧ (∀ r, b.compareBy r.symbol a = .ok (g r)) ∧
      (∀ r, f r = g r.converse) ∧
      ((∀ r, f r = false) ↔ a.Unordered b) ∧
      (¬a.Unordered b →
        [f .less, f .greater, f .atMost && f .atLeast].count true = 1 ∧
          f .atMost = !f .greater ∧ f .atLeast = !f .less) := by
  intro a b f g
  have forth : ∀ r, a.compareBy r.symbol b = .ok (f r) := by
    intro r
    cases r <;> decide +kernel
  have back : ∀ r, b.compareBy r.symbol a = .ok (g r) := by
    intro r
    cases r <;> decide +kernel
  exact ⟨forth, back, compare_consistent forth back⟩

end Value

end Walkthrough
