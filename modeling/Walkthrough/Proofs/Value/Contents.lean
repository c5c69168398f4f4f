import Walkthrough.Proofs.Attempt
import Walkthrough.Proofs.Value.Relabel

/-! What holds throughout a value: of its scalars and of the labels of its containers, at any depth.
Keys of maps are left out, since no path leads to them. A path stays inside the value, unless it
ends at something that is missing or counts or cuts a text or a list. -/
namespace Walkthrough

namespace Value

variable {ι κ : Type} {p : Scalar → Prop} {q q' : ι → Prop} {r : κ → Prop}

inductive Every (p : Scalar → Prop) (q : ι → Prop) : Value ι → Prop where
  | atom {s : Scalar} (here : p s) : Every p q (.atom s)
  | list {label : ι} {items : List (Value ι)} (own : q label) (all : ∀ v ∈ items, Every p q v) :
      Every p q (.list label items)
  | map {label : ι} {entries : Entries ι} (own : q label)
      (all : ∀ entry ∈ entries, Every p q entry.2) : Every p q (.map label entries)

@[simp] theorem every_atom_iff {s : Scalar} : Every p q (.atom s) ↔ p s := by
  constructor
  · rintro ⟨here⟩
    exact here
  · exact .atom

@[simp] theorem every_list_iff {label : ι} {items : List (Value ι)} :
    Every p q (.list label items) ↔ q label ∧ ∀ v ∈ items, Every p q v := by
  constructor
  · rintro (_ | ⟨own, all⟩)
    exact ⟨own, all⟩
  · rintro ⟨own, all⟩
    exact .list own all

@[simp] theorem every_map_iff {label : ι} {entries : Entries ι} :
    Every p q (.map label entries) ↔ q label ∧ ∀ entry ∈ entries, Every p q entry.2 := by
  constructor
  · rintro (_ | _ | ⟨own, all⟩)
    exact ⟨own, all⟩
  · rintro ⟨own, all⟩
    exact .map own all

theorem Every.relabel {ρ : ι → κ} (labels : ∀ label, q label → r (ρ label)) {v : Value ι}
    (holds : v.Every p q) : (v.relabel ρ).Every p r := by
  induction holds with
  | atom here => exact .atom here
  | list own all ih =>
    rw [Value.relabel, relabelItems_eq_map]
    exact .list (labels _ own) (List.forall_mem_map.mpr ih)
  | map own all ih =>
    rw [Value.relabel, relabelEntries_eq_map]
    exact .map (labels _ own) (List.forall_mem_map.mpr ih)

theorem Every.relabel_eq {ρ : ι → ι} (kept : ∀ label, q label → ρ label = label) {v : Value ι}
    (holds : v.Every p q) : v.relabel ρ = v := by
  induction holds with
  | atom => rfl
  | list own _ ih =>
    rw [Value.relabel, relabelItems_eq_map, List.map_congr_left ih, List.map_id', kept _ own]
  | @map label entries own _ ih =>
    have same : ∀ entry ∈ entries, (entry.1, entry.2.relabel ρ) = entry :=
      fun entry inside => by rw [ih entry inside]
    rw [Value.relabel, relabelEntries_eq_map, List.map_congr_left same, List.map_id', kept _ own]

theorem Every.erase {v : Value ι} (holds : v.Every p q) : v.erase.Every p fun _ => True := by
  rw [erase_eq_relabel]
  exact holds.relabel fun _ _ => trivial

theorem Every.mono (labels : ∀ label, q label → q' label) {v : Value ι} (holds : v.Every p q) :
    v.Every p q' := by
  induction holds with
  | atom here => exact .atom here
  | list own _ ih => exact .list (labels _ own) ih
  | map own _ ih => exact .map (labels _ own) ih

mutual

/-- The labels that a value receives lie below the next free one. -/
theorem Every.labelled {v : Value ι} (holds : v.Every p q) (next : Nat) :
    (labelled next v).1.Every p (· < (labelled next v).2) := by
  match v with
  | .atom s =>
    rw [every_atom_iff] at holds
    exact .atom holds
  | .list label items =>
    rw [every_list_iff] at holds
    exact .list (le_labelledItems (next + 1) items) (every_labelledItems holds.2 (next + 1))
  | .map label entries =>
    rw [every_map_iff] at holds
    exact .map (le_labelledEntries (next + 1) entries) (every_labelledEntries holds.2 (next + 1))

theorem every_labelledItems {items : List (Value ι)} (all : ∀ v ∈ items, v.Every p q) (next : Nat) :
    ∀ v ∈ (labelledItems next items).1, v.Every p (· < (labelledItems next items).2) := by
  match items with
  | [] => exact nofun
  | v :: rest =>
    rw [List.forall_mem_cons] at all
    refine List.forall_mem_cons.mpr ⟨?_, every_labelledItems all.2 _⟩
    exact (all.1.labelled next).mono fun _ below => Nat.lt_of_lt_of_le below (le_labelledItems _ rest)

theorem every_labelledEntries {entries : Entries ι} (all : ∀ entry ∈ entries, entry.2.Every p q)
    (next : Nat) : ∀ entry ∈ (labelledEntries next entries).1,
      entry.2.Every p (· < (labelledEntries next entries).2) := by
  match entries with
  | [] => exact nofun
  | (k, v) :: rest =>
    rw [List.forall_mem_cons] at all
    refine List.forall_mem_cons.mpr ⟨?_, every_labelledEntries all.2 _⟩
    exact (all.1.labelled next).mono fun _ below =>
      Nat.lt_of_lt_of_le below (le_labelledEntries _ rest)

end

/-- Nothing in the value is missing. -/
def Whole (v : Data) : Prop := v.Every (· ≠ .missing) fun _ => True

end Value

namespace Entries

variable {ι : Type} {entries : Entries ι} {P : Value ι → Prop}

theorem forall_insert {k : Scalar} {v : Value ι} (all : ∀ entry ∈ entries, P entry.2) (new : P v) :
    ∀ entry ∈ entries.insert k v, P entry.2 := by
  induction entries with
  | nil => simpa [insert] using new
  | cons entry rest ih =>
    rw [List.forall_mem_cons] at all
    rw [insert]
    split
    · exact List.forall_mem_cons.mpr ⟨new, all.2⟩
    · exact List.forall_mem_cons.mpr ⟨all.1, ih all.2⟩

theorem forall_merge {new : Entries ι} (all : ∀ entry ∈ entries, P entry.2)
    (added : ∀ entry ∈ new, P entry.2) : ∀ entry ∈ entries.merge new, P entry.2 := by
  induction new generalizing entries with
  | nil => exact all
  | cons entry rest ih =>
    rw [List.forall_mem_cons] at added
    exact ih (forall_insert all added.1) added.2

theorem forall_ofList {pairs : Entries ι} (all : ∀ entry ∈ pairs, P entry.2) :
    ∀ entry ∈ ofList pairs, P entry.2 := forall_merge nofun all

theorem mem_of_field? {name : String} {v : Value ι} (found : entries.field? name = some v) :
    ∃ entry ∈ entries, entry.2 = v := by
  obtain ⟨entry, here, rfl⟩ := Option.map_eq_some_iff.mp found
  exact ⟨entry, List.mem_of_find?_eq_some here, rfl⟩

end Entries

namespace Expression

open Value

variable {ι : Type} {p : Scalar → Prop} {q : ι → Prop} {v w : Value ι}

theorem characterAt_eq_ok {cs part : List Char} (found : characterAt cs part = .ok w) :
    ∃ s, w.normalize = .atom s ∧ s ≠ .missing := by
  unfold characterAt at found
  split at found
  · cases found
    exact ⟨_, rfl, nofun⟩
  · split at found
    · cases found
    · split at found
      · cases found
      · dsimp only at found
        split at found
        · split at found <;> cases found <;> exact ⟨_, rfl, nofun⟩
        · cases found
          exact ⟨_, rfl, nofun⟩

theorem itemAt_eq_ok {items : List (Value ι)} {part : List Char} (found : itemAt items part = .ok w) :
    w = .missing ∨ w ∈ items := by
  obtain ⟨number, -, found⟩ := bind_eq_ok.mp found
  split at found
  · cases found
    exact .inl rfl
  · obtain ⟨place, -, found⟩ := bind_eq_ok.mp found
    cases place with
    | none =>
      cases found
      exact .inl rfl
    | some i =>
      obtain rfl := Except.ok.inj found
      split
      · exact .inl rfl
      · cases there : items[i.toNat]? with
        | none => exact .inl rfl
        | some v => exact .inr (List.mem_of_getElem? there)

variable (plain : ∀ s, s ≠ .missing → p s)

include plain

theorem every_normalize_atom (s : Scalar) : (Value.atom s : Value ι).normalize.Every p q := by
  cases s <;> exact .atom (plain _ nofun)

theorem every_normalize (holds : v = .missing ∨ v.Every p q) : v.normalize.Every p q := by
  rcases holds with rfl | holds
  · exact every_normalize_atom plain .missing
  · cases v with
    | atom s => exact every_normalize_atom plain s
    | list | map => exact holds

theorem member_every {part : String} (holds : v.normalize.Every p q)
    (found : member v part = .ok w) : w.normalize.Every p q := by
  cases v with
  | atom s =>
    cases s with
    | text s =>
      rw [member] at found
      split at found
      · cases found
        exact every_normalize_atom plain _
      · obtain ⟨t, same, present⟩ := characterAt_eq_ok found
        rw [same]
        exact .atom (plain t present)
    | _ =>
      cases found
      exact every_normalize_atom plain _
  | list label items =>
    rw [member] at found
    split at found
    · cases found
      exact every_normalize_atom plain _
    · refine every_normalize plain ((itemAt_eq_ok found).imp_right fun inside => ?_)
      exact (every_list_iff.mp holds).2 _ inside
  | map label entries =>
    cases found
    cases there : Entries.field? entries part with
    | none => exact every_normalize_atom plain _
    | some u =>
      obtain ⟨entry, inside, rfl⟩ := Entries.mem_of_field? there
      exact every_normalize plain (.inr ((every_map_iff.mp holds).2 entry inside))

theorem follow_every {parts : List String} (holds : v.normalize.Every p q)
    (found : follow parts v = .ok w) : w.normalize.Every p q := by
  induction parts generalizing v with
  | nil =>
    cases found
    exact holds
  | cons part rest ih =>
    rw [follow] at found
    split at found
    · cases found
      exact every_normalize_atom plain _
    · obtain ⟨u, here, later⟩ := bind_eq_ok.mp found
      exact ih (member_every plain holds here) later

theorem resolve_every {path : String} (holds : v.normalize.Every p q)
    (found : resolve path v = .ok w) : w.normalize.Every p q := follow_every plain holds found

end Expression

end Walkthrough
