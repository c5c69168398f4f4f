import Walkthrough.Value.Coercion

/-! Structured data as a shape: what can be written as plain data, at any depth. -/
namespace Walkthrough

namespace Value

/-- Null, truth values, text, finite numbers, and lists and maps of these whose keys are text. -/
inductive Structured : Data → Prop where
  | null : Structured .null
  | bool (b : Bool) : Structured (.bool b)
  | text (s : String) : Structured (.text s)
  | int (n : Int) : Structured (.int n)
  | double {d : Double} (ordered : d.isNaN = false) (bounded : d.isInfinite = false) :
      Structured (.double d)
  | list {label : Unit} {items : List Data} (each : ∀ v ∈ items, Structured v) :
      Structured (.list label items)
  | map {label : Unit} {entries : Entries Unit} (keys : ∀ e ∈ entries, ∃ t, e.1 = .text t)
      (each : ∀ e ∈ entries, Structured e.2) : Structured (.map label entries)

theorem structured_atom_iff (s : Scalar) :
    isStructured (.atom s : Data) = true ↔ Structured (.atom s) := by
  constructor
  · intro holds
    cases s with
    | null => exact .null
    | bool b => exact .bool b
    | text t => exact .text t
    | number n =>
      cases n with
      | int n => exact .int n
      | double d =>
        have finite : d.isFinite = true := by simpa [isStructured, Number.isFinite] using holds
        obtain ⟨ordered, bounded⟩ : d.isNaN = false ∧ d.isInfinite = false := by
          simpa [Double.isFinite] using finite
        exact .double ordered bounded
    | missing | date | instant => simp [isStructured] at holds
  · intro holds
    cases holds with
    | null | bool | text => simp [isStructured]
    | int n => simp [isStructured, Number.isFinite]
    | double ordered bounded => simp [isStructured, Number.isFinite, Double.isFinite, ordered, bounded]

mutual

theorem isStructured_iff : ∀ v : Data, v.isStructured = true ↔ v.Structured
  | .atom s => structured_atom_iff s
  | .list label items => by
    rw [isStructured, allStructured_iff items]
    constructor
    · exact .list
    · intro holds
      cases holds with
      | list each => exact each
  | .map label entries => by
    rw [isStructured, entriesStructured_iff entries]
    constructor
    · exact fun holds => .map (fun e inside => (holds e inside).1) fun e inside => (holds e inside).2
    · intro holds
      cases holds with
      | map keys each => exact fun e inside => ⟨keys e inside, each e inside⟩

theorem allStructured_iff : ∀ items : List Data,
    allStructured items = true ↔ ∀ v ∈ items, v.Structured
  | [] => by simp [allStructured]
  | v :: items => by
    rw [allStructured, Bool.and_eq_true, isStructured_iff v, allStructured_iff items,
      List.forall_mem_cons]

theorem entriesStructured_iff : ∀ entries : List (Scalar × Data),
    entriesStructured entries = true ↔ ∀ e ∈ entries, (∃ t, e.1 = .text t) ∧ e.2.Structured
  | [] => by simp [entriesStructured]
  | (k, v) :: entries => by
    cases k with
    | text t =>
      rw [entriesStructured, Bool.and_eq_true, isStructured_iff v, entriesStructured_iff entries,
        List.forall_mem_cons]
      simp
    | null | missing | bool | number | date | instant => simp [entriesStructured]

end

end Value

end Walkthrough
