import Walkthrough.Proofs.Walk.Ending
import Walkthrough.Proofs.Walk.Snag

/-! Walks under different ceilings. A transition reads no ceiling but the one on loops, and that one
only where a loop is to be repeated. Under higher ceilings a walk therefore takes the same steps,
and it stops where it stopped unless a ceiling had cut it off. -/
namespace Walkthrough

/-- A ceiling allows nothing that another does not allow. -/
def Ceiling.Within (c c' : Ceiling) : Prop := ∀ n, c.allows n = true → c'.allows n = true

namespace Ceiling

variable {c : Ceiling} {m m' n : Nat}

theorem allows_without (n : Nat) : without.allows n = true := rfl

theorem within_without (c : Ceiling) : c.Within without := fun n _ => allows_without n

theorem allows_of_count_none (unlimited : c.count = none) : c.allows n = true := by
  simp [allows, unlimited]

theorem allows_of_count (limit : c.count = some m) : c.allows n = true ↔ n ≤ m := by
  simp [allows, limit]

theorem Within.count_eq_none {c' : Ceiling} (within : c.Within c') (unlimited : c.count = none) :
    c'.count = none := by
  cases limit : c'.count with
  | none => rfl
  | some most =>
    have allowed := within (most + 1) (allows_of_count_none unlimited)
    exact absurd ((allows_of_count limit).mp allowed) (Nat.not_succ_le_self most)

theorem allows_ofNat : (ofNat m).allows n = true ↔ m = 0 ∨ n ≤ m := by
  by_cases free : m = 0 <;> simp [ofNat, allows, free]

/-- Zero is the highest ceiling, the others are in the order of numbers. -/
theorem within_ofNat : (ofNat m).Within (ofNat m') ↔ m' = 0 ∨ (m ≠ 0 ∧ m ≤ m') := by
  simp only [Within, allows_ofNat]
  constructor
  · intro within
    have most := within m (.inr (Nat.le_refl m))
    by_cases free : m = 0
    · have beyond := within (m' + 1) (.inl free)
      omega
    · omega
  · rintro (free | ⟨limited, le⟩) n allowed
    · exact .inl free
    · exact .inr (by omega)

end Ceiling

def Settings.withCeilings (s : Settings) (loops steps : Ceiling) : Settings :=
  { s with maxLoopIterations := loops, maxAutoSteps := steps }

def Surroundings.withCeilings (env : Surroundings) (loops steps : Ceiling) : Surroundings :=
  { env with settings := env.settings.withCeilings loops steps }

/-- A ceiling has cut a walk off. -/
def Stop.Cut (s : Stop) : Prop := ∃ p, s = .failed p ∧ p.kind = .loopLimit

/-- A loop is at its end and is to be repeated. -/
def Walk.Rewinds (env : Surroundings) (w : Walk) : Prop :=
  w.top.frame.node? = none ∧
    ∃ owner e, w.top.frame.kind = .loop owner e ∧ env.truth e = .ok true

namespace Walk

variable {env : Surroundings} {w w' u v : Walk} {s t : Stop} {j k : Nat}
  {loops loops' steps steps' : Ceiling}

theorem stop_unique (reached : w.after env j = some u) (stop : u.step env = .stop u' s)
    (reached' : w.after env k = some v) (stop' : v.step env = .stop v' t) : j = k := by
  have last {i n : Nat} {x x' y : Walk} {r : Stop} (there : w.after env i = some x)
      (stop : x.step env = .stop x' r) (further : w.after env n = some y) : n ≤ i := by
    refine Nat.le_of_not_lt fun more => ?_
    obtain ⟨d, rfl⟩ := Nat.exists_eq_add_of_lt more
    rw [Nat.add_assoc, after_add, there, Option.bind_some, after_succ_of_stop stop] at further
    cases further
  exact Nat.le_antisymm (last reached' stop' reached) (last reached stop reached')

/-- A run ends where a transition stops, if it is allowed to come so far. -/
theorem run_of_after {stack : Stack} {log : List String}
    (reached : (start stack log).after env k = some v) (stop : v.step env = .stop u s)
    (room : env.settings.maxAutoSteps.allows (k + 1) = true) :
    (start stack log).run env = some (u, s) := by
  cases ceiling : env.settings.maxAutoSteps.count with
  | some most =>
    have less : k < most := (Ceiling.allows_of_count ceiling).mp room
    simp only [run, ceiling, runCapped_of_stop reached stop less]
  | none =>
    have ends : (start stack log).after env (k + 1) = none := by
      rw [after_add, reached, Option.bind_some, after_succ_of_stop stop]
    have returns : (start stack log).run env ≠ none := by
      intro endless
      have ever := (run_eq_none_iff stack log).mp endless
      simpa [ends] using ever.2 (k + 1)
    obtain ⟨⟨u', s'⟩, run⟩ := Option.ne_none_iff_exists'.mp returns
    obtain ⟨k', v', reached', ended⟩ := run_ends run
    cases ended with
    | cut limit => cases ceiling.symm.trans limit
    | stopped stop' _ =>
      cases stop_unique reached stop reached' stop'
      cases reached.symm.trans reached'
      cases stop.symm.trans stop'
      exact run

/-- Where a run has stopped: within its ceilings, or because of one. -/
theorem run_stops (h : w.run env = some (u, s)) : s.Cut ∨ ∃ k v, w.after env k = some v ∧
    v.step env = .stop u s ∧ env.settings.maxAutoSteps.allows (k + 1) = true := by
  simp only [run] at h
  split at h
  · rename_i most ceiling
    rcases runCapped_ends (Option.some.inj h) with ⟨k, v, less, reached, stop⟩ | ⟨-, cut⟩
    · exact .inr ⟨k, v, reached, stop, (Ceiling.allows_of_count ceiling).mpr less⟩
    · exact .inl ⟨_, cut, rfl⟩
  · rename_i unlimited
    obtain ⟨k, v, -, reached, stop⟩ := runWithin_eq_some h
    exact .inr ⟨k, v, reached, stop, Ceiling.allows_of_count_none unlimited⟩

/-! ## Transitions under different ceilings -/

theorem atNode_withCeilings (w : Walk) (n : Node) :
    w.atNode (env.withCeilings loops steps) n = w.atNode env n := by
  cases n <;> rfl

theorem step_of_not_rewinds (still : ¬w.Rewinds env) :
    w.step (env.withCeilings loops steps) = w.step env := by
  cases here : w.top.frame.node? with
  | some n => simp only [step, here, atNode_withCeilings]
  | none =>
    simp only [step, here, atEnd]
    split
    · rename_i owner e kind
      simp only [value, Surroundings.withCeilings]
      cases decided : (Expression.evaluate e env.context.toData).truth with
      | ok repeated =>
        cases repeated with
        | true => exact absurd ⟨here, owner, e, kind, decided⟩ still
        | false => rfl
      | error => rfl
    · rfl

theorem step_of_rewinds (rewinds : w.Rewinds env) : ∃ owner, ∀ loops steps,
    w.step (env.withCeilings loops steps) = w.again (env.withCeilings loops steps) owner := by
  obtain ⟨spent, owner, e, kind, holds⟩ := rewinds
  refine ⟨owner, fun loops steps => ?_⟩
  have truth : (value (env.withCeilings loops steps) e).truth = .ok true := holds
  simp only [step, spent, atEnd, kind, unlessFault, truth, if_true]

theorem step_of_allowed (allowed : w.Rewinds env → loops.allows (w.top.passes + 1) = true) :
    w.step (env.withCeilings loops steps) = w.step (env.withCeilings .without .without) := by
  by_cases rewinds : w.Rewinds env
  · obtain ⟨owner, again_eq⟩ := step_of_rewinds rewinds
    have within : (env.withCeilings loops steps).settings.maxLoopIterations.allows
        (w.top.passes + 1) = true := allowed rewinds
    rw [again_eq, again_eq, again, if_pos within]
    rfl
  · rw [step_of_not_rewinds rewinds, step_of_not_rewinds rewinds]

theorem step_of_refused (steps : Ceiling) (rewinds : w.Rewinds env)
    (refused : loops.allows (w.top.passes + 1) = false) :
    ∃ s, s.Cut ∧ w.step (env.withCeilings loops steps) = .stop w s := by
  obtain ⟨owner, again_eq⟩ := step_of_rewinds rewinds
  have beyond : ¬(env.withCeilings loops steps).settings.maxLoopIterations.allows
      (w.top.passes + 1) = true := by
    simpa [Surroundings.withCeilings, Settings.withCeilings] using refused
  refine ⟨.failed (.tooManyRepeats owner loops.shown), ⟨_, rfl, rfl⟩, ?_⟩
  rw [again_eq, again, if_neg beyond]
  rfl

/-- A transition that no ceiling cuts off is the same under higher ceilings. -/
theorem step_relaxed (steps' : Ceiling) (within : loops.Within loops')
    (uncut : ∀ u s, w.step (env.withCeilings loops steps) = .stop u s → ¬s.Cut) :
    w.step (env.withCeilings loops' steps') = w.step (env.withCeilings loops steps) := by
  have allowed : w.Rewinds env → loops.allows (w.top.passes + 1) = true := by
    intro rewinds
    refine Bool.of_not_eq_false fun refused => ?_
    obtain ⟨s, cut, stop⟩ := step_of_refused steps rewinds refused
    exact uncut w s stop cut
  rw [step_of_allowed allowed, step_of_allowed fun rewinds => within _ (allowed rewinds)]

theorem after_relaxed (within : loops.Within loops')
    (reached : w.after (env.withCeilings loops steps) k = some v) :
    w.after (env.withCeilings loops' steps') k = some v := by
  induction k generalizing w with
  | zero => exact reached
  | succ k ih =>
    cases step : w.step (env.withCeilings loops steps) with
    | go u =>
      have same := step_relaxed steps' within
        (fun u' s stop => by cases step.symm.trans stop)
      rw [after_succ_of_go step] at reached
      rw [after_succ_of_go (same.trans step)]
      exact ih reached
    | stop u s => simp [after_succ_of_stop step] at reached

/-- A run that no ceiling cuts off is the same under higher ceilings. -/
theorem run_relaxed (env : Surroundings) (loops_le : loops.Within loops')
    (steps_le : steps.Within steps') (stack : Stack) (log : List String)
    (uncut : ∀ u s, (start stack log).run (env.withCeilings loops steps) = some (u, s) → ¬s.Cut) :
    (start stack log).run (env.withCeilings loops' steps') =
      (start stack log).run (env.withCeilings loops steps) := by
  cases returns : (start stack log).run (env.withCeilings loops steps) with
  | some r =>
    obtain ⟨u, s⟩ := r
    rcases run_stops returns with cut | ⟨k, v, reached, stop, room⟩
    · exact absurd cut (uncut u s returns)
    · have whole (u' : Walk) (t : Stop)
          (stop' : v.step (env.withCeilings loops steps) = .stop u' t) : ¬t.Cut := by
        cases stop.symm.trans stop'
        exact uncut u s returns
      have same := step_relaxed steps' loops_le whole
      exact run_of_after (after_relaxed loops_le reached) (same.trans stop) (steps_le _ room)
  | none =>
    obtain ⟨unlimited, ever⟩ := (run_eq_none_iff stack log).mp returns
    refine (run_eq_none_iff stack log).mpr ⟨steps_le.count_eq_none unlimited, fun n => ?_⟩
    obtain ⟨v, reached⟩ := Option.isSome_iff_exists.mp (ever n)
    exact Option.isSome_iff_exists.mpr ⟨v, after_relaxed loops_le reached⟩

end Walk

end Walkthrough
