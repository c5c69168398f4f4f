import Mathlib.Tactic.SplitIfs
import Walkthrough.Proofs.Value.Entries
import Walkthrough.Proofs.Value.Relabel

/-! The labels of plain data. What is labelled from another number on is the same with its block of
labels moved there, and entries one behind the other have blocks one behind the other. So an entry
taken in front of others exchanges two blocks. -/
namespace Walkthrough

namespace Value

variable {ι : Type} {ρ : Nat → Nat}

mutual

theorem relabel_block (n m : Nat) (v : Value ι)
    (shift : ∀ k, n ≤ k → k < (labelled n v).2 → ρ k + n = k + m) :
    (labelled n v).1.relabel ρ = (labelled m v).1 ∧
      (labelled n v).2 + m = (labelled m v).2 + n := by
  match v with
  | .atom s => exact ⟨rfl, Nat.add_comm n m⟩
  | .list label items =>
    have here := shift n (Nat.le_refl n) (le_labelledItems (n + 1) items)
    obtain ⟨same, stop⟩ := relabel_blockItems (n + 1) (m + 1) items fun k le lt => by
      have := shift k (by omega) lt
      omega
    have first : ρ n = m := by omega
    exact ⟨by simp only [labelled, relabel, first, same], by simp only [labelled]; omega⟩
  | .map label entries =>
    have here := shift n (Nat.le_refl n) (le_labelledEntries (n + 1) entries)
    obtain ⟨same, stop⟩ := relabel_blockEntries (n + 1) (m + 1) entries fun k le lt => by
      have := shift k (by omega) lt
      omega
    have first : ρ n = m := by omega
    exact ⟨by simp only [labelled, relabel, first, same], by simp only [labelled]; omega⟩

theorem relabel_blockItems (n m : Nat) (items : List (Value ι))
    (shift : ∀ k, n ≤ k → k < (labelledItems n items).2 → ρ k + n = k + m) :
    relabelItems ρ (labelledItems n items).1 = (labelledItems m items).1 ∧
      (labelledItems n items).2 + m = (labelledItems m items).2 + n := by
  match items with
  | [] => exact ⟨rfl, Nat.add_comm n m⟩
  | v :: rest =>
    have le := le_labelled n v
    have le' := le_labelledItems (labelled n v).2 rest
    obtain ⟨first, stop⟩ := relabel_block n m v fun k le lt =>
      shift k le (Nat.lt_of_lt_of_le lt le')
    obtain ⟨later, stop'⟩ := relabel_blockItems (labelled n v).2 (labelled m v).2 rest
      fun k le lt => by
        have := shift k (by omega) lt
        omega
    exact ⟨by simp only [labelledItems, relabelItems, first, later],
      by simp only [labelledItems]; omega⟩

theorem relabel_blockEntries (n m : Nat) (entries : Entries ι)
    (shift : ∀ k, n ≤ k → k < (labelledEntries n entries).2 → ρ k + n = k + m) :
    relabelEntries ρ (labelledEntries n entries).1 = (labelledEntries m entries).1 ∧
      (labelledEntries n entries).2 + m = (labelledEntries m entries).2 + n := by
  match entries with
  | [] => exact ⟨rfl, Nat.add_comm n m⟩
  | (key, v) :: rest =>
    have le := le_labelled n v
    have le' := le_labelledEntries (labelled n v).2 rest
    obtain ⟨first, stop⟩ := relabel_block n m v fun k le lt =>
      shift k le (Nat.lt_of_lt_of_le lt le')
    obtain ⟨later, stop'⟩ := relabel_blockEntries (labelled n v).2 (labelled m v).2 rest
      fun k le lt => by
        have := shift k (by omega) lt
        omega
    exact ⟨by simp only [labelledEntries, relabelEntries, first, later],
      by simp only [labelledEntries]; omega⟩

end

theorem relabelEntries_append (ρ : Nat → Nat) (front back : Entries Nat) :
    relabelEntries ρ (front ++ back) = relabelEntries ρ front ++ relabelEntries ρ back := by
  simp only [relabelEntries_eq_map, List.map_append]

theorem labelledEntries_append (n : Nat) (front back : Entries ι) :
    labelledEntries n (front ++ back) =
      ((labelledEntries n front).1 ++ (labelledEntries (labelledEntries n front).2 back).1,
        (labelledEntries (labelledEntries n front).2 back).2) := by
  induction front generalizing n with
  | nil => rfl
  | cons entry front ih =>
    simp only [List.cons_append, labelledEntries, ih]

theorem field?_labelledEntries_eq_none_iff {n : Nat} {es : Entries Unit} {name : String} :
    Entries.field? (labelledEntries n es).1 name = none ↔ es.field? name = none := by
  have erased : es.field? name =
      (Entries.field? (labelledEntries n es).1 name).map (relabel fun _ => ()) := by
    rw [Entries.field?, Entries.field?, ← Entries.get?_relabel, ← eraseEntries_eq_relabelEntries,
      eraseEntries_labelledEntries]
  rw [erased, Option.map_eq_none_iff]

/-- Two blocks of labels, one behind the other, exchanged. -/
def exchanged (start middle stop label : Nat) : Nat :=
  if label < start then label
  else if label < middle then label + (stop - middle)
  else if label < stop then label - (middle - start)
  else label

theorem exchanged_injective {start middle stop : Nat} (low : start ≤ middle)
    (high : middle ≤ stop) : Function.Injective (exchanged start middle stop) := by
  intro a b same
  unfold exchanged at same
  split_ifs at same <;> omega

theorem exchanged_of_le {start middle stop k : Nat} (low : start ≤ middle) (high : middle ≤ stop)
    (le : stop ≤ k) : exchanged start middle stop k = k := by
  unfold exchanged
  split_ifs <;> omega

/-- Entries and a value behind them exchange their blocks. -/
theorem relabel_exchanged (start : Nat) (others : Entries Unit) (v : Data) :
    let middle := (labelledEntries start others).2
    let stop := (labelled middle v).2
    let later := labelledEntries (labelled start v).2 others
    (labelled middle v).1.relabel (exchanged start middle stop) = (labelled start v).1 ∧
      relabelEntries (exchanged start middle stop) (labelledEntries start others).1 = later.1 ∧
      later.2 = stop := by
  intro middle stop later
  have low : start ≤ middle := le_labelledEntries start others
  have high : middle ≤ stop := le_labelled middle v
  obtain ⟨first, length⟩ := relabel_block (ρ := exchanged start middle stop) middle start v
    fun k le lt => by
      unfold exchanged
      split_ifs <;> omega
  obtain ⟨second, length'⟩ := relabel_blockEntries (ρ := exchanged start middle stop) start
    (labelled start v).2 others fun k le lt => by
      unfold exchanged
      split_ifs <;> omega
  refine ⟨first, second, ?_⟩
  change (labelledEntries (labelled start v).2 others).2 = stop
  omega

/-- An entry taken in front of others that have another key is found under the same name, and so
are the others, up to an exchange of labels. -/
theorem exists_exchange (n : Nat) (front others back : Entries Unit) {name : String} (v : Data)
    (absent : others.field? name = none) :
    let before := labelledEntries n (front ++ (others ++ (.text name, v) :: back))
    let after := labelledEntries n (front ++ (.text name, v) :: (others ++ back))
    ∃ ρ : Nat → Nat, Function.Injective ρ ∧ (∀ k, before.2 ≤ k → ρ k = k) ∧ after.2 = before.2 ∧
      ∀ r, Entries.field? (relabelEntries ρ before.1) r = Entries.field? after.1 r := by
  intro before after
  let start := (labelledEntries n front).2
  let middle := (labelledEntries start others).2
  let stop := (labelled middle v).2
  let ρ := exchanged start middle stop
  have low : start ≤ middle := le_labelledEntries start others
  have high : middle ≤ stop := le_labelled middle v
  let later := labelledEntries (labelled start v).2 others
  -- the labels of `front` and `back` stay, the two blocks between them change places
  obtain ⟨first, second, same⟩ : (labelled middle v).1.relabel ρ = (labelled start v).1 ∧
      relabelEntries ρ (labelledEntries start others).1 = later.1 ∧ later.2 = stop :=
    relabel_exchanged start others v
  have kept : ∀ k, stop ≤ k → ρ k = k := fun k => exchanged_of_le low high
  have left := (relabel_blockEntries (ρ := ρ) n n front fun k _ lt => by
    have old : k < start := lt
    simp only [ρ, exchanged, if_pos old]).1
  have right := (relabel_blockEntries (ρ := ρ) stop stop back fun k le _ => by rw [kept k le]).1
  have before_eq : before = ((labelledEntries n front).1 ++ ((labelledEntries start others).1 ++
      (.text name, (labelled middle v).1) :: (labelledEntries stop back).1),
      (labelledEntries stop back).2) := by
    simp only [before, labelledEntries_append, labelledEntries, start, middle, stop]
  have after_eq : after = ((labelledEntries n front).1 ++ (.text name, (labelled start v).1) ::
      (later.1 ++ (labelledEntries stop back).1), (labelledEntries stop back).2) := by
    simp only [after, labelledEntries_append, labelledEntries, ← same, start, later]
  have end_le : stop ≤ (labelledEntries stop back).2 := le_labelledEntries stop back
  refine ⟨ρ, exchanged_injective low high, fun k le => kept k ?_, ?_, fun r => ?_⟩
  · rw [before_eq] at le
    omega
  · rw [before_eq, after_eq]
  · have apart : Entries.field? later.1 name = none :=
      field?_labelledEntries_eq_none_iff.mpr absent
    rw [before_eq, after_eq, relabelEntries_append, relabelEntries_append, relabelEntries, left,
      second, first, right]
    simp only [Entries.field?_append, Entries.field?_cons, Scalar.text.injEq]
    split_ifs with own
    · subst own
      rw [apart, Option.none_or]
    · rfl

end Value

end Walkthrough
