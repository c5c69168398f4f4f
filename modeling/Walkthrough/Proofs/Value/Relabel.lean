import Walkthrough.Value.Equality
import Walkthrough.Value.Labels
import Walkthrough.Expression.Path

/-! Other labels for the same values. Labels only tell containers apart, so truth, text, members
and order do not see them, and equality sees no more than which of them are the same. Erasing the
labels is relabelling, too. -/
namespace Walkthrough

namespace Value

variable {ι κ : Type}

mutual

def relabel (ρ : ι → κ) : Value ι → Value κ
  | .atom s => .atom s
  | .list label items => .list (ρ label) (relabelItems ρ items)
  | .map label entries => .map (ρ label) (relabelEntries ρ entries)

def relabelItems (ρ : ι → κ) : List (Value ι) → List (Value κ)
  | [] => []
  | v :: rest => v.relabel ρ :: relabelItems ρ rest

def relabelEntries (ρ : ι → κ) : List (Scalar × Value ι) → List (Scalar × Value κ)
  | [] => []
  | (k, v) :: rest => (k, v.relabel ρ) :: relabelEntries ρ rest

end

variable (ρ : ι → κ)

theorem relabelItems_eq_map (items : List (Value ι)) :
    relabelItems ρ items = items.map (relabel ρ) := by
  induction items with
  | nil => rfl
  | cons v rest ih => rw [relabelItems, ih, List.map_cons]

theorem relabelEntries_eq_map (entries : List (Scalar × Value ι)) :
    relabelEntries ρ entries = entries.map fun entry => (entry.1, entry.2.relabel ρ) := by
  induction entries with
  | nil => rfl
  | cons entry rest ih => rw [relabelEntries, ih, List.map_cons]

mutual

theorem erase_eq_relabel (v : Value ι) : v.erase = v.relabel fun _ => () := by
  cases v with
  | atom s => rfl
  | list label items => rw [erase, relabel, eraseItems_eq_relabelItems]
  | map label entries => rw [erase, relabel, eraseEntries_eq_relabelEntries]

theorem eraseItems_eq_relabelItems (items : List (Value ι)) :
    eraseItems items = relabelItems (fun _ => ()) items := by
  cases items with
  | nil => rfl
  | cons v rest => rw [eraseItems, relabelItems, erase_eq_relabel, eraseItems_eq_relabelItems]

theorem eraseEntries_eq_relabelEntries (entries : List (Scalar × Value ι)) :
    eraseEntries entries = relabelEntries (fun _ => ()) entries := by
  cases entries with
  | nil => rfl
  | cons entry rest =>
    obtain ⟨k, v⟩ := entry
    rw [eraseEntries, relabelEntries, erase_eq_relabel, eraseEntries_eq_relabelEntries]

end

mutual

theorem erase_relabel (v : Value ι) : (v.relabel ρ).erase = v.erase := by
  cases v with
  | atom s => rfl
  | list label items => rw [relabel, erase, erase, eraseItems_relabelItems]
  | map label entries => rw [relabel, erase, erase, eraseEntries_relabelEntries]

theorem eraseItems_relabelItems (items : List (Value ι)) :
    eraseItems (relabelItems ρ items) = eraseItems items := by
  cases items with
  | nil => rfl
  | cons v rest => rw [relabelItems, eraseItems, eraseItems, erase_relabel, eraseItems_relabelItems]

theorem eraseEntries_relabelEntries (entries : List (Scalar × Value ι)) :
    eraseEntries (relabelEntries ρ entries) = eraseEntries entries := by
  cases entries with
  | nil => rfl
  | cons entry rest =>
    obtain ⟨k, v⟩ := entry
    rw [relabelEntries, eraseEntries, eraseEntries, erase_relabel, eraseEntries_relabelEntries]

end

@[simp] theorem isNullish_relabel (v : Value ι) : (v.relabel ρ).isNullish = v.isNullish := by
  cases v with
  | atom s => cases s <;> rfl
  | list | map => rfl

@[simp] theorem truth_relabel (v : Value ι) : (v.relabel ρ).truth = v.truth := by
  cases v with
  | atom s => cases s <;> rfl
  | list | map => rfl

theorem normalize_relabel (v : Value ι) : (v.relabel ρ).normalize = v.normalize.relabel ρ := by
  cases v with
  | atom s => cases s <;> rfl
  | list | map => rfl

mutual

theorem string_relabel (v : Value ι) : (v.relabel ρ).string = v.string := by
  cases v with
  | atom s => cases s <;> rfl
  | list label items => rw [relabel, string, string, displays_relabelItems]
  | map => rfl

theorem displays_relabelItems (items : List (Value ι)) :
    displays (relabelItems ρ items) = displays items := by
  cases items with
  | nil => rfl
  | cons v rest =>
    rw [relabelItems, displays, displays, isNullish_relabel, string_relabel, displays_relabelItems]

end

@[simp] theorem display_relabel (v : Value ι) : (v.relabel ρ).display = v.display := by
  rw [display, display, isNullish_relabel, string_relabel]

@[simp] theorem primitive_relabel (v : Value ι) : (v.relabel ρ).primitive = v.primitive := by
  have same := v.string_relabel ρ
  cases v with
  | atom => rfl
  | list | map => exact congrArg (Except.map Scalar.text) same

theorem label?_relabel (v : Value ι) : (v.relabel ρ).label? = v.label?.map ρ := by
  cases v <;> rfl

theorem looseEquals_relabel {ρ : ι → κ} {same : ι → ι → Bool} {same' : κ → κ → Bool}
    (alike : ∀ x y, same' (ρ x) (ρ y) = same x y) (a b : Value ι) :
    (a.relabel ρ).looseEquals same' (b.relabel ρ) = a.looseEquals same b := by
  simp only [looseEquals, isNullish_relabel, label?_relabel, primitive_relabel]
  cases a.label? <;> cases b.label? <;> simp [alike]

theorem compare_relabel (relation : Relation) (a b : Value ι) :
    (a.relabel ρ).compare relation (b.relabel ρ) = a.compare relation b := by
  rw [compare, compare, primitive_relabel, primitive_relabel]

theorem truth_normalize (v : Value ι) : v.normalize.truth = v.truth := by
  cases v with
  | atom s => cases s <;> rfl
  | list | map => rfl

theorem display_normalize (v : Value ι) : v.normalize.display = v.display := by
  cases v with
  | atom s => cases s <;> rfl
  | list | map => rfl

mutual

theorem le_labelled (next : Nat) (v : Value ι) : next ≤ (labelled next v).2 := by
  cases v with
  | atom s => exact Nat.le_refl next
  | list label items => exact Nat.le_of_succ_le (le_labelledItems (next + 1) items)
  | map label entries => exact Nat.le_of_succ_le (le_labelledEntries (next + 1) entries)

theorem le_labelledItems (next : Nat) (items : List (Value ι)) :
    next ≤ (labelledItems next items).2 := by
  cases items with
  | nil => exact Nat.le_refl next
  | cons v rest => exact Nat.le_trans (le_labelled next v) (le_labelledItems _ rest)

theorem le_labelledEntries (next : Nat) (entries : List (Scalar × Value ι)) :
    next ≤ (labelledEntries next entries).2 := by
  cases entries with
  | nil => exact Nat.le_refl next
  | cons entry rest =>
    obtain ⟨k, v⟩ := entry
    exact Nat.le_trans (le_labelled next v) (le_labelledEntries _ rest)

end

mutual

/-- All labels that a value receives lie below the next free one. -/
theorem relabel_labelled {ρ : Nat → Nat} {next : Nat} (v : Value ι)
    (kept : ∀ k < (labelled next v).2, ρ k = k) :
    (labelled next v).1.relabel ρ = (labelled next v).1 := by
  cases v with
  | atom s => rfl
  | list label items =>
    have first := kept next (le_labelledItems (next + 1) items)
    simp only [labelled, relabel, first, relabelItems_labelledItems items kept]
  | map label entries =>
    have first := kept next (le_labelledEntries (next + 1) entries)
    simp only [labelled, relabel, first, relabelEntries_labelledEntries entries kept]

theorem relabelItems_labelledItems {ρ : Nat → Nat} {next : Nat} (items : List (Value ι))
    (kept : ∀ k < (labelledItems next items).2, ρ k = k) :
    relabelItems ρ (labelledItems next items).1 = (labelledItems next items).1 := by
  cases items with
  | nil => rfl
  | cons v rest =>
    have first := relabel_labelled v fun k below =>
      kept k (Nat.lt_of_lt_of_le below (le_labelledItems _ rest))
    simp only [labelledItems, relabelItems, first, relabelItems_labelledItems rest kept]

theorem relabelEntries_labelledEntries {ρ : Nat → Nat} {next : Nat}
    (entries : List (Scalar × Value ι)) (kept : ∀ k < (labelledEntries next entries).2, ρ k = k) :
    relabelEntries ρ (labelledEntries next entries).1 = (labelledEntries next entries).1 := by
  cases entries with
  | nil => rfl
  | cons entry rest =>
    obtain ⟨k, v⟩ := entry
    have first := relabel_labelled v fun k below =>
      kept k (Nat.lt_of_lt_of_le below (le_labelledEntries _ rest))
    simp only [labelledEntries, relabelEntries, first, relabelEntries_labelledEntries rest kept]

end

end Value

namespace Entries

open Value

variable {ι κ : Type} (ρ : ι → κ)

theorem get?_relabel (entries : Entries ι) (key : Scalar) :
    get? (relabelEntries ρ entries) key = (get? entries key).map (relabel ρ) := by
  rw [relabelEntries_eq_map, get?, get?, List.find?_map, Option.map_map, Option.map_map]
  rfl

theorem insert_relabel (entries : Entries ι) (key : Scalar) (v : Value ι) :
    insert (relabelEntries ρ entries) key (v.relabel ρ) = relabelEntries ρ (insert entries key v) := by
  induction entries with
  | nil => rfl
  | cons entry rest ih =>
    obtain ⟨k, w⟩ := entry
    simp only [relabelEntries, insert]
    split
    · rfl
    · rw [ih, relabelEntries]

theorem merge_relabel (entries new : Entries ι) :
    merge (relabelEntries ρ entries) (relabelEntries ρ new) = relabelEntries ρ (merge entries new) := by
  induction new generalizing entries with
  | nil => rfl
  | cons entry rest ih =>
    obtain ⟨k, v⟩ := entry
    have step := ih (insert entries k v)
    rw [← insert_relabel] at step
    exact step

theorem ofList_relabel (pairs : Entries ι) :
    ofList (relabelEntries ρ pairs) = relabelEntries ρ (ofList pairs) := merge_relabel ρ [] pairs

end Entries

namespace Expression

open Value

variable {ι κ : Type} (ρ : ι → κ)

theorem characterAt_relabel (cs part : List Char) :
    (characterAt cs part : Except Fault (Value κ)) = (characterAt cs part).map (relabel ρ) := by
  unfold characterAt
  simp only [apply_ite (Except.map (relabel ρ))]
  cases cs[Numeral.natOfDigits 10 (Numeral.digitRun part).1]? <;> rfl

theorem itemAt_relabel (items : List (Value ι)) (part : List Char) :
    itemAt (relabelItems ρ items) part = (itemAt items part).map (relabel ρ) := by
  unfold itemAt
  cases Numeral.parse? part with
  | error => rfl
  | ok number =>
    simp only [bind, Except.bind]
    split
    · rfl
    · cases Numeral.intPrefix? part with
      | error => rfl
      | ok place =>
        cases place with
        | none => rfl
        | some i =>
          simp only [pure, Except.pure, Except.map]
          split
          · rfl
          · rw [relabelItems_eq_map, List.getElem?_map, ← Option.getD_map (f := relabel ρ)]
            rfl

theorem member_relabel (v : Value ι) (part : String) :
    member (v.relabel ρ) part = (member v part).map (relabel ρ) := by
  cases v with
  | atom s =>
    cases s with
    | text s =>
      simp only [relabel, member]
      split
      · rfl
      · exact characterAt_relabel ρ _ _
    | _ => rfl
  | list label items =>
    simp only [relabel, member, itemAt_relabel]
    split
    · rw [relabelItems_eq_map, List.length_map]
      rfl
    · rfl
  | map label entries =>
    simp only [relabel, member, Entries.field?, Entries.get?_relabel]
    cases Entries.get? entries (.text part) <;> rfl

theorem follow_relabel (parts : List String) (v : Value ι) :
    follow parts (v.relabel ρ) = (follow parts v).map (relabel ρ) := by
  induction parts generalizing v with
  | nil => rfl
  | cons part rest ih =>
    simp only [follow, isNullish_relabel, member_relabel]
    split
    · rfl
    · cases member v part with
      | error => rfl
      | ok w => exact ih w

theorem resolve_relabel (path : String) (context : Value ι) :
    resolve path (context.relabel ρ) = (resolve path context).map (relabel ρ) :=
  follow_relabel ρ _ context

end Expression

end Walkthrough
