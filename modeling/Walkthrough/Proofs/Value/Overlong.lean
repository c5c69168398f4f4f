import Walkthrough.Proofs.Attempt
import Walkthrough.Value.Coercion
import Walkthrough.Value.Listing

/-! Which values cannot be listed: those that hold a whole number with too many digits somewhere, be
it the key of a map. -/
namespace Walkthrough

theorem Number.eq_zero_of_equals {n : Int} (zero : (Number.int n).equals .zero = true) : n = 0 := by
  have place : (⟨0, n * unitsInOne⟩ : Position) = ⟨0, 0 * unitsInOne⟩ := eq_of_beq zero
  have units : (unitsInOne : Int) ≠ 0 := by decide +kernel
  exact Int.eq_of_mul_eq_mul_right units (Position.mk.inj place).2

def Scalar.Overlong : Scalar → Prop
  | .number n => digitLimit < n.digits
  | _ => False

/-- A whole number with too many digits stands in the value, at any depth. -/
inductive Value.Overlong {ι : Type} : Value ι → Prop where
  | atom {s : Scalar} (here : s.Overlong) : Overlong (.atom s)
  | item {label : ι} {items : List (Value ι)} {v : Value ι} (inside : v ∈ items)
      (there : Overlong v) : Overlong (.list label items)
  | key {label : ι} {entries : Entries ι} {entry : Scalar × Value ι} (inside : entry ∈ entries)
      (here : entry.1.Overlong) : Overlong (.map label entries)
  | entry {label : ι} {entries : Entries ι} {entry : Scalar × Value ι} (inside : entry ∈ entries)
      (there : Overlong entry.2) : Overlong (.map label entries)

theorem Scalar.listed_eq_error_iff {s : Scalar} : (∃ f, s.listed = .error f) ↔ s.Overlong := by
  cases s with
  | number n => simp [listed, Overlong, Number.written_eq_error]
  | _ => simp [listed, Overlong]

namespace Value

variable {ι : Type} {v : Value ι} {label : ι} {items : List (Value ι)} {entries : Entries ι}

theorem overlong_atom_iff {s : Scalar} : (Value.atom s : Value ι).Overlong ↔ s.Overlong := by
  constructor
  · rintro ⟨here⟩
    exact here
  · exact .atom

theorem overlong_list_iff : (Value.list label items).Overlong ↔ ∃ v ∈ items, v.Overlong := by
  constructor
  · rintro (_ | ⟨inside, there⟩)
    exact ⟨_, inside, there⟩
  · rintro ⟨v, inside, there⟩
    exact .item inside there

theorem overlong_map_iff : (Value.map label entries).Overlong ↔
    ∃ entry ∈ entries, entry.1.Overlong ∨ entry.2.Overlong := by
  constructor
  · rintro (_ | _ | ⟨inside, here⟩ | ⟨inside, there⟩)
    · exact ⟨_, inside, .inl here⟩
    · exact ⟨_, inside, .inr there⟩
  · rintro ⟨entry, inside, here | there⟩
    · exact .key inside here
    · exact .entry inside there

/-- What is void holds nothing, and zero has a single digit. -/
theorem Overlong.given (long : v.Overlong) : v.isVoid = false := by
  cases long with
  | @atom s here =>
    cases s with
    | number n =>
      cases n with
      | double d => exact absurd here (Nat.not_lt_zero _)
      | int n =>
        refine Bool.eq_false_iff.mpr fun zero => ?_
        cases Number.eq_zero_of_equals zero
        exact absurd here (by decide : ¬digitLimit < (Number.int 0).digits)
    | _ => exact here.elim
  | @item _ items _ inside => exact List.isEmpty_eq_false_iff.mpr (List.ne_nil_of_mem inside)
  | key inside | entry inside => exact List.isEmpty_eq_false_iff.mpr (List.ne_nil_of_mem inside)

mutual

theorem listed_eq_error_iff (v : Value ι) : (∃ f, v.listed = .error f) ↔ v.Overlong := by
  match v with
  | .atom s => rw [listed, Scalar.listed_eq_error_iff, overlong_atom_iff]
  | .list label items =>
    rw [listed, exists_map_eq_error, listedItems_eq_error_iff items, overlong_list_iff]
  | .map label entries =>
    rw [listed, exists_map_eq_error, listedEntries_eq_error_iff entries, overlong_map_iff]

theorem listedItems_eq_error_iff (items : List (Value ι)) :
    (∃ f, listedItems items = .error f) ↔ ∃ v ∈ items, v.Overlong := by
  match items with
  | [] => exact ⟨nofun, nofun⟩
  | v :: rest =>
    rw [listedItems, exists_both_eq_error, listed_eq_error_iff v, listedItems_eq_error_iff rest,
      List.exists_mem_cons_iff]

theorem listedEntries_eq_error_iff (entries : Entries ι) :
    (∃ f, listedEntries entries = .error f) ↔
      ∃ entry ∈ entries, entry.1.Overlong ∨ entry.2.Overlong := by
  match entries with
  | [] => exact ⟨nofun, nofun⟩
  | (k, v) :: rest =>
    rw [List.exists_mem_cons_iff, ← listedEntries_eq_error_iff rest, ← listed_eq_error_iff v,
      ← Scalar.listed_eq_error_iff, or_assoc, listedEntries]
    cases k.listed with
    | error f => exact iff_of_true ⟨f, rfl⟩ (.inl ⟨f, rfl⟩)
    | ok key =>
      rw [or_iff_right (by rintro ⟨f, ⟨⟩⟩)]
      exact exists_both_eq_error

end

theorem shown_eq_error_iff (v : Value ι) : (∃ f, v.shown = .error f) ↔ v.Overlong := by
  rw [← listed_eq_error_iff]
  cases v with
  | atom s =>
    cases s with
    | text | date | instant => simp [shown, listed, Scalar.listed]
    | _ => rfl
  | list | map => rfl

mutual

theorem fault_of_listed {f : Fault} (v : Value ι) (fails : v.listed = .error f) :
    f = .tooManyDigits := by
  match v with
  | .atom s =>
    cases s with
    | number n => exact (Number.written_eq_error.mp fails).2
    | _ => cases fails
  | .list label items => exact fault_of_listedItems items (map_eq_error.mp fails)
  | .map label entries => exact fault_of_listedEntries entries (map_eq_error.mp fails)

theorem fault_of_listedItems {f : Fault} (items : List (Value ι))
    (fails : listedItems items = .error f) : f = .tooManyDigits := by
  match items with
  | [] => cases fails
  | v :: rest =>
    obtain first | ⟨_, _, fails⟩ := bind_eq_error.mp fails
    · exact fault_of_listed v first
    · exact fault_of_listedItems rest (map_eq_error.mp fails)

theorem fault_of_listedEntries {f : Fault} (entries : Entries ι)
    (fails : listedEntries entries = .error f) : f = .tooManyDigits := by
  match entries with
  | [] => cases fails
  | (k, v) :: rest =>
    obtain key | ⟨_, _, fails⟩ := bind_eq_error.mp fails
    · exact fault_of_listed (Value.atom k : Value ι) key
    · obtain value | ⟨_, _, fails⟩ := bind_eq_error.mp fails
      · exact fault_of_listed v value
      · exact fault_of_listedEntries rest (map_eq_error.mp fails)

end

theorem fault_of_shown {f : Fault} (fails : v.shown = .error f) : f = .tooManyDigits := by
  cases v with
  | atom s =>
    cases s with
    | text | date | instant => cases fails
    | _ => exact fault_of_listed _ fails
  | list | map => exact fault_of_listed _ fails

theorem shown_eq_error {f : Fault} : v.shown = .error f ↔ v.Overlong ∧ f = .tooManyDigits := by
  constructor
  · intro fails
    exact ⟨(shown_eq_error_iff v).mp ⟨f, fails⟩, fault_of_shown fails⟩
  · rintro ⟨long, rfl⟩
    obtain ⟨f, fails⟩ := (shown_eq_error_iff v).mpr long
    rw [fails, fault_of_shown fails]

end Value

end Walkthrough
