import Mathlib.Data.List.Infix
import Mathlib.Data.Set.Basic
import Walkthrough.Proofs.Number.Decimal
import Walkthrough.Workflow.Document

/-! Ids of places. Such an id is the id of the node around it, the key of the block and a position,
joined with dots. It goes on behind the id of that node, and two ids that differ with as many dots
in them have nothing in common behind them. -/
namespace Walkthrough

/-- An id that is another one, or goes on behind it with a dot. -/
def Under (owner id : String) : Prop := id = owner ∨ owner.toList ++ ['.'] <+: id.toList

/-- Ids of which neither is under the other. -/
def Apart (a b : String) : Prop := ¬Under a b ∧ ¬Under b a

def dots (id : String) : Nat := id.toList.count '.'

section Under

variable {a b c id : String}

theorem dots_eq_zero : dots id = 0 ↔ '.' ∉ id.toList := List.count_eq_zero

theorem Under.refl (a : String) : Under a a := .inl rfl

theorem Under.trans (first : Under a b) (second : Under b c) : Under a c := by
  obtain rfl | first := first
  · exact second
  obtain rfl | second := second
  · exact .inr first
  · exact .inr (first.trans ((List.prefix_append _ _).trans second))

theorem Under.comparable (first : Under a id) (second : Under b id) : Under a b ∨ Under b a := by
  obtain rfl | first := first
  · exact .inr second
  obtain rfl | second := second
  · exact .inl (.inr first)
  -- both stand in front of the id with a dot behind them, so one of them in front of the other
  have step {x y : String} (shorter : x.toList ++ ['.'] <+: y.toList ++ ['.']) : Under x y := by
    obtain same | inside := List.prefix_concat_iff.mp shorter
    · exact .inl (String.toList_inj.mp (List.append_cancel_right same)).symm
    · exact .inr inside
  exact (List.prefix_or_prefix_of_prefix first second).imp step step

theorem Under.eq_of_dots (under : Under a b) (few : dots b ≤ dots a) : a = b := by
  obtain rfl | front := under
  · rfl
  · have more := front.count_le '.'
    rw [List.count_append, List.count_singleton_self] at more
    exact absurd (Nat.lt_of_lt_of_le more few) (Nat.lt_irrefl _)

namespace Apart

theorem symm (apart : Apart a b) : Apart b a := ⟨apart.2, apart.1⟩

theorem not_under (apart : Apart a b) (first : Under a id) : ¬Under b id :=
  fun second => (first.comparable second).elim apart.1 apart.2

theorem of_under (apart : Apart a b) (below : Under b c) : Apart a c :=
  ⟨fun under => apart.not_under under below, fun above => apart.2 (below.trans above)⟩

theorem of_dots (same : dots a = dots b) (other : a ≠ b) : Apart a b :=
  ⟨fun under => other (under.eq_of_dots same.ge),
    fun under => other (under.eq_of_dots same.le).symm⟩

end Apart

end Under

/-! ## Ids of places -/

namespace Place

def childIds (place : Place) (i : Nat) : Set String := {id | ∃ j, i ≤ j ∧ id = place.childId j}

/-- The ids of places in the blocks of a node. -/
def blockIds (owner : String) (keys : List String) : Set String :=
  {id | ∃ key ∈ keys, id ∈ (block owner key).childIds 0}

variable {owner key key' id : String} {keys : List String} {place : Place} {i j : Nat}

theorem toList_childId_top (i : Nat) :
    (top.childId i).toList = "step_".toList ++ i.repr.toList := String.toList_append

theorem toList_childId_block (owner key : String) (i : Nat) : ((block owner key).childId i).toList =
    owner.toList ++ '.' :: (key.toList ++ '.' :: i.repr.toList) := by
  simp [childId, ToString.toString]

theorem not_mem_repr (i : Nat) : '.' ∉ i.repr.toList := by
  rw [Nat.toList_repr]
  intro inside
  have digit := Nat.isDigit_of_mem_toDigits (by decide) (by decide) inside
  revert digit
  decide

theorem dots_childId_top (i : Nat) : dots (top.childId i) = 0 := by
  rw [dots_eq_zero, toList_childId_top, List.mem_append, not_or]
  exact ⟨by decide, not_mem_repr i⟩

theorem dots_childId_block (owner key : String) (i : Nat) :
    dots ((block owner key).childId i) = dots owner + dots key + 2 := by
  have figures := List.count_eq_zero.mpr (not_mem_repr i)
  simp only [dots, toList_childId_block, List.count_append, List.count_cons_self, figures]
  omega

theorem dots_childId (place : Place) (i j : Nat) :
    dots (place.childId i) = dots (place.childId j) := by
  cases place with
  | top => rw [dots_childId_top, dots_childId_top]
  | block owner key => rw [dots_childId_block, dots_childId_block]

theorem repr_inj (same : i.repr.toList = j.repr.toList) : i = j := by
  rw [Nat.toList_repr, Nat.toList_repr] at same
  exact Numeral.toDigits_injective same

theorem childId_block_inj (undotted : '.' ∉ key.toList)
    (same : (block owner key).childId i = (block owner key').childId j) : key = key' ∧ i = j := by
  have texts := congrArg String.toList same
  rw [toList_childId_block, toList_childId_block] at texts
  have rest := (List.cons.inj (List.append_cancel_left texts)).2
  obtain ⟨keys, -, figures⟩ :=
    (List.append_cons_inj_of_notMem undotted (not_mem_repr i)).mp rest
  exact ⟨String.toList_inj.mp keys, repr_inj figures⟩

theorem childId_injective (place : Place) : Function.Injective place.childId := by
  intro i j same
  have texts := congrArg String.toList same
  have figures : i.repr.toList = j.repr.toList := by
    cases place with
    | top =>
      rw [toList_childId_top, toList_childId_top] at texts
      exact List.append_cancel_left texts
    | block owner key =>
      rw [toList_childId_block, toList_childId_block] at texts
      have rest := (List.cons.inj (List.append_cancel_left texts)).2
      exact (List.cons.inj (List.append_cancel_left rest)).2
  exact repr_inj figures

theorem under_childId (owner key : String) (i : Nat) :
    Under owner ((block owner key).childId i) := by
  refine .inr ⟨key.toList ++ '.' :: i.repr.toList, ?_⟩
  rw [toList_childId_block, List.append_assoc, List.singleton_append]

theorem under_of_mem_blockIds (inside : id ∈ blockIds owner keys) : Under owner id := by
  obtain ⟨key, -, j, -, rfl⟩ := inside
  exact under_childId owner key j

theorem not_under_of_mem_blockIds (inside : id ∈ blockIds owner keys) : ¬Under id owner := by
  intro above
  obtain ⟨key, -, j, -, rfl⟩ := inside
  have more := dots_childId_block owner key j
  have same := above.eq_of_dots (by omega)
  rw [same] at more
  omega

theorem apart_childIds (before : i < j) : ∀ a ∈ ({place.childId i} : Set String),
    ∀ b ∈ place.childIds j, Apart a b := by
  rintro _ rfl _ ⟨k, le, rfl⟩
  refine .of_dots (place.dots_childId i k) fun same => ?_
  have := place.childId_injective same
  omega

theorem apart_blockIds (undotted : ∀ k ∈ key :: keys, '.' ∉ k.toList) (other : key ∉ keys) :
    ∀ a ∈ (block owner key).childIds 0, ∀ b ∈ blockIds owner keys, Apart a b := by
  rintro _ ⟨i, -, rfl⟩ _ ⟨key', member, j, -, rfl⟩
  have none (k : String) (here : k ∈ key :: keys) : dots k = 0 := dots_eq_zero.mpr (undotted k here)
  refine .of_dots ?_ fun same => ?_
  · rw [dots_childId_block, dots_childId_block, none key List.mem_cons_self,
      none key' (List.mem_cons_of_mem _ member)]
  · obtain ⟨rfl, -⟩ := childId_block_inj (undotted key List.mem_cons_self) same
    exact other member

end Place

end Walkthrough
