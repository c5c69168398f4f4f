import Mathlib.Data.Finset.Card
import Mathlib.Data.Finset.Max
import Walkthrough.Proofs.Walk.Ceiling

/-! How often one frame is repeated. A frame stays where it is as long as the stack does not become
lower, so heights alone tell whether two repetitions are repetitions of the same frame; nothing here
goes by the passes that frames carry. Those turn out to be exactly such repetitions, and the ceiling
on loops cuts a walk off just where there is one too many. -/
namespace Walkthrough

namespace Walk

/-- The number of frames below the top one after so many transitions. -/
def depth? (env : Surroundings) (w : Walk) (k : Nat) : Option Nat :=
  (w.after env k).map fun v => v.below.length

def RewindsAt (env : Surroundings) (w : Walk) (k : Nat) : Prop :=
  ∃ v, w.after env k = some v ∧ v.Rewinds env

/-- The stack becomes no lower than it is with so many frames below the top one. -/
def Keeps (env : Surroundings) (w : Walk) (depth j k : Nat) : Prop :=
  ∀ i, j ≤ i → i ≤ k → ∃ d, w.depth? env i = some d ∧ depth ≤ d

/-- The frame on top after `j` transitions is the one on top after `k`. -/
def SameFrame (env : Surroundings) (w : Walk) (j k : Nat) : Prop :=
  ∃ depth, w.depth? env j = some depth ∧ w.depth? env k = some depth ∧ w.Keeps env depth j k

/-- There is a frame, pushed once, that is repeated at least so many times. -/
def Repeated (env : Surroundings) (w : Walk) (n : Nat) : Prop :=
  ∃ times : Finset Nat, times.card = n ∧ (∀ k ∈ times, w.RewindsAt env k) ∧
    ∀ j ∈ times, ∀ k ∈ times, j ≤ k → w.SameFrame env j k

/-- A frame that is in the stack after `k` transitions has been repeated after `j`. -/
structure Rewound (env : Surroundings) (w : Walk) (depth k j : Nat) : Prop where
  before : j < k
  rewinds : w.RewindsAt env j
  there : w.depth? env j = some depth
  keeps : w.Keeps env depth j k

/-- Every frame has passed as often as it has been repeated. -/
def Tallied (env : Surroundings) (w : Walk) (k : Nat) (u : Walk) : Prop :=
  ∀ upper a lower, u.top :: u.below = upper ++ a :: lower →
    ∃ times : Finset Nat, times.card = a.passes ∧
      ∀ j, j ∈ times ↔ w.Rewound env lower.length k j

variable {env : Surroundings} {w u v : Walk} {depth j k m : Nat} {loops steps : Ceiling}

theorem depth?_of_after (reached : w.after env k = some v) :
    w.depth? env k = some v.below.length := by
  simp [depth?, reached]

theorem rewindsAt_iff (reached : w.after env k = some v) :
    w.RewindsAt env k ↔ v.Rewinds env := by
  constructor
  · rintro ⟨v', reached', rewinds⟩
    cases reached.symm.trans reached'
    exact rewinds
  · intro rewinds
    exact ⟨v, reached, rewinds⟩

theorem Rewound.not_deeper (h : w.Rewound env depth k j) (reached : w.after env k = some v) :
    depth ≤ v.below.length := by
  obtain ⟨d, height, le⟩ := h.keeps k (Nat.le_of_lt h.before) (Nat.le_refl k)
  cases (depth?_of_after reached).symm.trans height
  exact le

theorem rewound_succ (reached : w.after env k = some u) (next : w.after env (k + 1) = some v)
    (le : depth ≤ v.below.length) : w.Rewound env depth (k + 1) j ↔
      w.Rewound env depth k j ∨ (j = k ∧ u.Rewinds env ∧ u.below.length = depth) := by
  constructor
  · intro h
    rcases Nat.lt_succ_iff_lt_or_eq.mp h.before with before | rfl
    · exact .inl ⟨before, h.rewinds, h.there, fun i low high => h.keeps i low (by omega)⟩
    · have height := (depth?_of_after reached).symm.trans h.there
      exact .inr ⟨rfl, (rewindsAt_iff reached).mp h.rewinds, Option.some.inj height⟩
  · rintro (h | ⟨rfl, rewinds, height⟩)
    · refine ⟨Nat.lt_succ_of_lt h.before, h.rewinds, h.there, fun i low high => ?_⟩
      rcases Nat.le_succ_iff.mp high with high | rfl
      · exact h.keeps i low high
      · exact ⟨_, depth?_of_after next, le⟩
    · refine ⟨Nat.lt_succ_self j, (rewindsAt_iff reached).mpr rewinds,
        height ▸ depth?_of_after reached, fun i low high => ?_⟩
      rcases Nat.le_succ_iff.mp high with high | rfl
      · cases Nat.le_antisymm low high
        exact ⟨_, depth?_of_after reached, Nat.le_of_eq height.symm⟩
      · exact ⟨_, depth?_of_after next, le⟩

/-- A frame that is not the one repeated keeps its count. -/
theorem Tallied.kept (tallied : w.Tallied env k u) (reached : w.after env k = some u)
    (next : w.after env (k + 1) = some v) {upper lower : List Active} {a : Active}
    (split : u.top :: u.below = upper ++ a :: lower) (le : lower.length ≤ v.below.length)
    (other : u.Rewinds env → u.below.length ≠ lower.length) :
    ∃ times : Finset Nat, times.card = a.passes ∧
      ∀ j, j ∈ times ↔ w.Rewound env lower.length (k + 1) j := by
  obtain ⟨times, count, each⟩ := tallied upper a lower split
  refine ⟨times, count, fun j => ?_⟩
  rw [each, rewound_succ reached next le]
  constructor
  · exact .inl
  · rintro (h | ⟨-, rewinds, height⟩)
    · exact h
    · exact absurd height (other rewinds)

theorem not_rewinds_of_here (env : Surroundings) {n : Node}
    (here : u.top.frame.node? = some n) : ¬u.Rewinds env := by
  rintro ⟨spent, -⟩
  cases spent.symm.trans here

theorem Moves.tallied (moves : u.Moves env v) (tallied : w.Tallied env k u)
    (reached : w.after env k = some u) (next : w.after env (k + 1) = some v) :
    w.Tallied env (k + 1) v := by
  intro upper a lower split
  have shorter : lower.length ≤ v.below.length := by
    have lengths := congrArg List.length split
    simp only [List.length_cons, List.length_append] at lengths
    omega
  cases moves with
  | opens here _ =>
    have still := not_rewinds_of_here env here
    cases upper with
    | nil =>
      -- no frame has been so high up since the stack was lower
      obtain ⟨rfl, rfl⟩ := List.cons.inj split
      refine ⟨∅, rfl, fun j => ⟨fun none => absurd none (Finset.notMem_empty j), fun h => ?_⟩⟩
      rcases (rewound_succ reached next shorter).mp h with h | ⟨-, rewinds, -⟩
      · exact absurd (h.not_deeper reached) (Nat.not_succ_le_self _)
      · exact absurd rewinds still
    | cons _ upper =>
      exact tallied.kept reached next (List.cons.inj split).2 shorter
        fun rewinds => absurd rewinds still
  | passes here _ =>
    have still := not_rewinds_of_here env here
    cases upper with
    | nil =>
      obtain ⟨rfl, rfl⟩ := List.cons.inj split
      exact tallied.kept (a := u.top) reached next (List.nil_append _).symm shorter
        fun rewinds => absurd rewinds still
    | cons b upper =>
      have whole : u.top :: u.below = (u.top :: upper) ++ a :: lower :=
        congrArg (u.top :: ·) (List.cons.inj split).2
      exact tallied.kept reached next whole shorter fun rewinds => absurd rewinds still
  | again spent kind holds _ =>
    cases upper with
    | nil =>
      obtain ⟨rfl, rfl⟩ := List.cons.inj split
      obtain ⟨times, count, each⟩ := tallied [] u.top u.below rfl
      have newest : k ∉ times := fun inside => Nat.lt_irrefl k ((each k).mp inside).before
      refine ⟨insert k times, by rw [Finset.card_insert_of_notMem newest, count], fun j => ?_⟩
      rw [Finset.mem_insert, each, rewound_succ reached next shorter]
      constructor
      · rintro (rfl | h)
        · exact .inr ⟨rfl, ⟨spent, _, _, kind, holds⟩, rfl⟩
        · exact .inl h
      · rintro (h | ⟨same, -⟩)
        · exact .inr h
        · exact .inl same
    | cons b upper =>
      have rest : u.below = upper ++ a :: lower := (List.cons.inj split).2
      have whole : u.top :: u.below = (u.top :: upper) ++ a :: lower := congrArg (u.top :: ·) rest
      refine tallied.kept reached next whole shorter fun _ same => ?_
      have lengths := congrArg List.length rest
      simp only [List.length_append, List.length_cons] at lengths
      omega
  | @leaves parent rest log _ released below =>
    have still : ¬u.Rewinds env := by
      rintro ⟨-, owner, e, kind, holds⟩
      cases holds.symm.trans (released owner e kind)
    cases upper with
    | nil =>
      obtain ⟨rfl, rfl⟩ := List.cons.inj split
      have whole : u.top :: u.below = [u.top] ++ parent :: rest := by simp [below]
      exact tallied.kept (a := parent) reached next whole shorter
        fun rewinds => absurd rewinds still
    | cons b upper =>
      have whole : u.top :: u.below = (u.top :: parent :: upper) ++ a :: lower :=
        below ▸ congrArg (u.top :: parent :: ·) (List.cons.inj split).2
      exact tallied.kept reached next whole shorter fun rewinds => absurd rewinds still

/-- All along a walk that begins with no passes counted, passes are repetitions. -/
theorem tallied_of_after (fresh : w.Few 0) (reached : w.after env k = some v) :
    w.Tallied env k v := by
  induction k generalizing v with
  | zero =>
    cases reached
    intro upper a lower split
    have none : a.passes ≤ 0 := fresh a (by simp [split])
    refine ⟨∅, (Nat.le_zero.mp none).symm, fun j => ?_⟩
    exact ⟨fun inside => absurd inside (Finset.notMem_empty j),
      fun h => absurd h.before (Nat.not_lt_zero j)⟩
  | succ k ih =>
    obtain ⟨u, before, step⟩ := after_succ_eq_some reached
    exact (moves_of_step step).tallied (ih before) before reached

/-! ## Where the ceiling on loops cuts a walk off -/

theorem keeps_self (there : w.depth? env k = some depth) : w.Keeps env depth k k := by
  intro i low high
  cases Nat.le_antisymm low high
  exact ⟨depth, there, Nat.le_refl depth⟩

theorem repeated_of_passes (fresh : w.Few 0) (reached : w.after env k = some v)
    (rewinds : v.Rewinds env) (many : m ≤ v.top.passes) : w.Repeated env (m + 1) := by
  obtain ⟨times, count, each⟩ := tallied_of_after fresh reached [] v.top v.below rfl
  obtain ⟨some_, inside, size⟩ := Finset.exists_subset_card_eq (count ▸ many)
  have newest : k ∉ some_ := fun h => Nat.lt_irrefl k ((each k).mp (inside h)).before
  have height := depth?_of_after reached
  have member : ∀ j ∈ insert k some_, j ≤ k ∧ w.RewindsAt env j ∧
      w.depth? env j = some v.below.length ∧ w.Keeps env v.below.length j k := by
    intro j here
    rcases Finset.mem_insert.mp here with rfl | earlier
    · exact ⟨Nat.le_refl j, ⟨v, reached, rewinds⟩, height, keeps_self height⟩
    · obtain ⟨before, rewinds, there, keeps⟩ := (each j).mp (inside earlier)
      exact ⟨Nat.le_of_lt before, rewinds, there, keeps⟩
  refine ⟨insert k some_, by rw [Finset.card_insert_of_notMem newest, size],
    fun j here => (member j here).2.1, fun i left j right _ => ?_⟩
  obtain ⟨-, -, there, keeps⟩ := member i left
  obtain ⟨before, -, there', -⟩ := member j right
  exact ⟨_, there, there', fun n low high => keeps n low (Nat.le_trans high before)⟩

theorem passes_of_repeated (fresh : w.Few 0) (repeated : w.Repeated env (m + 1)) :
    ∃ k v, w.after env k = some v ∧ v.Rewinds env ∧ m ≤ v.top.passes := by
  obtain ⟨times, size, each, same⟩ := repeated
  have filled : times.Nonempty := Finset.card_pos.mp (size ▸ Nat.succ_pos m)
  obtain ⟨k, last, latest⟩ := Finset.exists_max_image times id filled
  obtain ⟨v, reached, rewinds⟩ := each k last
  refine ⟨k, v, reached, rewinds, ?_⟩
  obtain ⟨counted, count, tally⟩ := tallied_of_after fresh reached [] v.top v.below rfl
  have others : times.erase k ⊆ counted := by
    intro j here
    obtain ⟨apart, inside⟩ := Finset.mem_erase.mp here
    have before : j ≤ k := latest j inside
    obtain ⟨depth, there, there', keeps⟩ := same j inside k last before
    cases (depth?_of_after reached).symm.trans there'
    exact (tally j).mpr ⟨Nat.lt_of_le_of_ne before apart, each j inside, there, keeps⟩
  have fewer := Finset.card_le_card others
  rwa [Finset.card_erase_of_mem last, size, Nat.add_sub_cancel, count] at fewer

/-- Under a ceiling a walk goes where it goes without one, as long as it is not cut off. -/
theorem after_or_cut
    (reached : w.after (env.withCeilings .without .without) k = some v) :
    w.after (env.withCeilings loops steps) k = some v ∨
      ∃ j u s, w.after (env.withCeilings loops steps) j = some u ∧
        u.step (env.withCeilings loops steps) = .stop u s ∧ s.Cut := by
  induction k generalizing w with
  | zero => exact .inl reached
  | succ k ih =>
    by_cases refused : w.Rewinds env ∧ loops.allows (w.top.passes + 1) = false
    · obtain ⟨s, cut, stop⟩ := step_of_refused steps refused.1 refused.2
      exact .inr ⟨0, w, s, rfl, stop, cut⟩
    · have same : w.step (env.withCeilings loops steps) =
          w.step (env.withCeilings .without .without) :=
        step_of_allowed fun rewinds =>
          Bool.of_not_eq_false fun refusal => refused ⟨rewinds, refusal⟩
      cases step : w.step (env.withCeilings .without .without) with
      | stop u s => simp [after_succ_of_stop step] at reached
      | go u =>
        rw [after_succ_of_go step] at reached
        rcases ih reached with reached | ⟨j, x, s, there, stop, cut⟩
        · exact .inl ((after_succ_of_go (same.trans step)).trans reached)
        · exact .inr ⟨j + 1, x, s, (after_succ_of_go (same.trans step)).trans there, stop, cut⟩

/-- With no ceiling but one on loops, a run is cut off just when without ceilings some frame would
be repeated once more than that. -/
theorem run_cut_iff (env : Surroundings) (limit : loops.count = some m)
    (free : steps.count = none) (stack : Stack) (log : List String) :
    (∃ u s, (start stack log).run (env.withCeilings loops steps) = some (u, s) ∧ s.Cut) ↔
      (start stack log).Repeated (env.withCeilings .without .without) (m + 1) := by
  have fresh := start_few 0 stack log
  constructor
  · rintro ⟨u, s, returns, p, rfl, kind⟩
    obtain ⟨k, v, reached, ends⟩ := run_ends returns
    cases ends with
    | cut ceiling => cases free.symm.trans ceiling
    | stopped stop _ =>
      cases (stops_of_step stop).2.2 with
      | unreachable _ => cases kind
      | repeated spent kind' holds refused =>
        have many : ¬v.top.passes + 1 ≤ m := by
          rw [← Ceiling.allows_of_count limit]
          exact Bool.not_eq_true _ ▸ refused
        exact repeated_of_passes fresh (after_relaxed (Ceiling.within_without loops) reached)
          ⟨spent, _, _, kind', holds⟩ (by omega)
  · intro repeated
    obtain ⟨k, v, reached, rewinds, many⟩ := passes_of_repeated fresh repeated
    have refused : loops.allows (v.top.passes + 1) = false := by
      rw [← Bool.not_eq_true, Ceiling.allows_of_count limit]
      omega
    have room : ∀ j, (env.withCeilings loops steps).settings.maxAutoSteps.allows (j + 1) = true :=
      fun j => Ceiling.allows_of_count_none free
    rcases after_or_cut reached with reached | ⟨j, u, s, there, stop, cut⟩
    · obtain ⟨s, cut, stop⟩ := step_of_refused steps rewinds refused
      exact ⟨v, s, run_of_after reached stop (room k), cut⟩
    · exact ⟨u, s, run_of_after there stop (room j), cut⟩

end Walk

end Walkthrough
