import Walkthrough.Proofs.Walk.Transition

/-! Walks as sequences of transitions. What each transition keeps holds all the way, and a run ends
where a transition stops or where the ceiling on transitions cuts it off. -/
namespace Walkthrough

def Walk.after (env : Surroundings) : Nat → Walk → Option Walk
  | 0, w => some w
  | n + 1, w =>
    match w.step env with
    | .go w' => after env n w'
    | .stop .. => none

/-- How a run ends that has come to a walk: there it stops, or there it is cut off. -/
inductive Walk.Ends (env : Surroundings) (v : Walk) : Walk → Stop → Prop where
  | stopped {w : Walk} {s : Stop} (stop : v.step env = .stop w s)
      (room : env.settings.maxAutoSteps.count ≠ some 0) : Ends env v w s
  | cut {most : Nat} (ceiling : env.settings.maxAutoSteps.count = some most) :
      Ends env v v (.failed (.tooManySteps env.settings.maxAutoSteps.shown))

namespace Walk

variable {env : Surroundings} {w w' v : Walk} {s : Stop} {n : Nat}

@[simp] theorem start_stack (stack : Stack) (log : List String) :
    (start stack log).stack = stack := by
  simp [start, Walk.stack, Function.comp_def]

theorem after_succ_of_go (go : w.step env = .go w') : w.after env (n + 1) = w'.after env n := by
  simp only [after, go]

theorem after_succ_of_stop (stop : w.step env = .stop w' s) : w.after env (n + 1) = none := by
  simp only [after, stop]

theorem after_invariant {P : Walk → Prop} (keep : ∀ {u u' : Walk}, u.Moves env u' → P u → P u')
    (start : P w) (h : w.after env n = some v) : P v := by
  induction n generalizing w with
  | zero => cases h; exact start
  | succ n ih =>
    cases step : w.step env with
    | go w' =>
      rw [after_succ_of_go step] at h
      exact ih (keep (moves_of_step step) start) h
    | stop w' s => simp [after_succ_of_stop step] at h

theorem runWithin_eq_some (h : w.runWithin env n = some (w', s)) :
    ∃ k v, k < n ∧ w.after env k = some v ∧ v.step env = .stop w' s := by
  induction n generalizing w with
  | zero => simp [runWithin] at h
  | succ n ih =>
    cases step : w.step env with
    | go u =>
      simp only [runWithin, step] at h
      obtain ⟨k, v, less, reached, stop⟩ := ih h
      exact ⟨k + 1, v, Nat.succ_lt_succ less, (after_succ_of_go step).trans reached, stop⟩
    | stop u t =>
      simp only [runWithin, step, Option.some.injEq, Prod.mk.injEq] at h
      obtain ⟨rfl, rfl⟩ := h
      exact ⟨0, w, Nat.succ_pos n, rfl, step⟩

theorem runCapped_ends (h : w.runCapped env n = (w', s)) :
    (∃ k v, k < n ∧ w.after env k = some v ∧ v.step env = .stop w' s) ∨
      (w.after env n = some w' ∧ s = .failed (.tooManySteps env.settings.maxAutoSteps.shown)) := by
  induction n generalizing w with
  | zero =>
    simp only [runCapped, Prod.mk.injEq] at h
    exact .inr ⟨congrArg some h.1, h.2.symm⟩
  | succ n ih =>
    cases step : w.step env with
    | go u =>
      simp only [runCapped, step] at h
      rcases ih h with ⟨k, v, less, reached, stop⟩ | ⟨reached, cut⟩
      · exact .inl ⟨k + 1, v, Nat.succ_lt_succ less, (after_succ_of_go step).trans reached, stop⟩
      · exact .inr ⟨(after_succ_of_go step).trans reached, cut⟩
    | stop u t =>
      simp only [runCapped, step, Prod.mk.injEq] at h
      obtain ⟨rfl, rfl⟩ := h
      exact .inl ⟨0, w, Nat.succ_pos n, rfl, step⟩

theorem run_ends (h : w.run env = some (w', s)) :
    ∃ k v, w.after env k = some v ∧ v.Ends env w' s := by
  simp only [run] at h
  split at h
  · rename_i most ceiling
    rcases runCapped_ends (Option.some.inj h) with ⟨k, v, less, reached, stop⟩ | ⟨reached, cut⟩
    · have room : env.settings.maxAutoSteps.count ≠ some 0 := by
        intro none
        cases ceiling.symm.trans none
        exact Nat.not_lt_zero k less
      exact ⟨k, v, reached, .stopped stop room⟩
    · exact ⟨most, w', reached, cut ▸ .cut ceiling⟩
  · rename_i unlimited
    obtain ⟨k, v, -, reached, stop⟩ := runWithin_eq_some h
    exact ⟨k, v, reached, .stopped stop (by simp [unlimited])⟩

theorem run_of_stop (stop : w.step env = .stop w' s)
    (room : env.settings.maxAutoSteps.count ≠ some 0) : w.run env = some (w', s) := by
  simp only [run]
  split
  · rename_i most ceiling
    cases most with
    | zero => exact absurd ceiling room
    | succ most => simp only [runCapped, stop]
  · simp only [bound, runWithin, stop]

theorem step_of_awaits (env : Surroundings) {n : Node} {status : Status}
    (here : w.top.frame.node? = some n) (awaits : n.Awaits status) :
    ∃ log, w.step env = .stop { w with log := log } (.halted status) := by
  simp only [step, here]
  cases awaits with
  | interaction => exact ⟨_, rfl⟩
  | call named =>
    simp only [atNode, named]
    exact ⟨_, rfl⟩

theorem Stops.fatal {p : Problem} (h : w.Stops env (.failed p)) : p.kind.fatal = true := by
  cases h <;> rfl

theorem Ends.fatal {p : Problem} (h : v.Ends env w (.failed p)) : p.kind.fatal = true := by
  cases h with
  | stopped stop _ => exact (stops_of_step stop).2.2.fatal
  | cut _ => rfl

theorem Ends.samePlace (h : v.Ends env w s) : w.top = v.top ∧ w.below = v.below := by
  cases h with
  | stopped stop _ => exact ⟨(stops_of_step stop).1, (stops_of_step stop).2.1⟩
  | cut _ => exact ⟨rfl, rfl⟩

end Walk

end Walkthrough
