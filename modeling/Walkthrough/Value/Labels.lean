import Walkthrough.Value.Basic

/-! Labels for the containers of plain data. Every container receives a number of its own, in
order, starting from the one given; erasing the labels gives the data back. -/
namespace Walkthrough.Value

variable {ι : Type}

mutual

/-- The value with its containers numbered, and the next free number. -/
def labelled (next : Nat) : Value ι → Value Nat × Nat
  | .atom s => (.atom s, next)
  | .list _ items =>
    let (items, free) := labelledItems (next + 1) items
    (.list next items, free)
  | .map _ entries =>
    let (entries, free) := labelledEntries (next + 1) entries
    (.map next entries, free)

def labelledItems (next : Nat) : List (Value ι) → List (Value Nat) × Nat
  | [] => ([], next)
  | v :: rest =>
    let (first, free) := labelled next v
    let (others, free) := labelledItems free rest
    (first :: others, free)

def labelledEntries (next : Nat) : List (Scalar × Value ι) → List (Scalar × Value Nat) × Nat
  | [] => ([], next)
  | (k, v) :: rest =>
    let (first, free) := labelled next v
    let (others, free) := labelledEntries free rest
    ((k, first) :: others, free)

end

mutual

def erase : Value ι → Data
  | .atom s => .atom s
  | .list _ items => .list () (eraseItems items)
  | .map _ entries => .map () (eraseEntries entries)

def eraseItems : List (Value ι) → List Data
  | [] => []
  | v :: rest => erase v :: eraseItems rest

def eraseEntries : List (Scalar × Value ι) → List (Scalar × Data)
  | [] => []
  | (k, v) :: rest => (k, erase v) :: eraseEntries rest

end

mutual

theorem erase_labelled (next : Nat) (v : Data) : erase (labelled next v).1 = v := by
  cases v with
  | atom s => rfl
  | list _ items => simp [labelled, erase, eraseItems_labelledItems]
  | map _ entries => simp [labelled, erase, eraseEntries_labelledEntries]

theorem eraseItems_labelledItems (next : Nat) (vs : List Data) :
    eraseItems (labelledItems next vs).1 = vs := by
  cases vs with
  | nil => rfl
  | cons v vs => simp [labelledItems, eraseItems, erase_labelled, eraseItems_labelledItems]

theorem eraseEntries_labelledEntries (next : Nat) (es : List (Scalar × Data)) :
    eraseEntries (labelledEntries next es).1 = es := by
  cases es with
  | nil => rfl
  | cons e es =>
    obtain ⟨k, v⟩ := e
    simp [labelledEntries, eraseEntries, erase_labelled, eraseEntries_labelledEntries]

end

end Walkthrough.Value
