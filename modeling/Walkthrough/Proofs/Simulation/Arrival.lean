import Walkthrough.Proofs.Simulation.Call
import Walkthrough.Proofs.Walk.Ending

/-! Where a walk leaves a simulation. It has come to some place by transitions; there it waits, has
completed or has failed, and only the frames, the log, the status and the error are new. -/
namespace Walkthrough

/-- A place where a simulation may wait or has come to its end. -/
inductive Stack.Rests (stack : Stack) : Status → Prop where
  | awaits {n : Node} {status : Status} (here : stack.top.node? = some n)
      (awaits : n.Awaits status) : Rests stack status
  | completed (spent : stack.top.node? = none) (alone : stack.below = []) : Rests stack .completed

theorem Stack.Rests.not_running {stack : Stack} {status : Status} (h : stack.Rests status) :
    status ≠ .running ∧ status ≠ .failed := by
  cases h with
  | awaits _ awaits => cases awaits <;> exact ⟨nofun, nofun⟩
  | completed _ _ => exact ⟨nofun, nofun⟩

theorem Stack.Rests.awaits_of_node {stack : Stack} {status : Status} {n : Node}
    (h : stack.Rests status) (here : stack.top.node? = some n) : n.Awaits status := by
  cases h with
  | awaits there awaits =>
    cases here.symm.trans there
    exact awaits
  | completed spent _ => cases spent.symm.trans here

namespace Walk

variable {env : Surroundings} {v w : Walk} {stop : Stop} {status : Status}

theorem Ends.stack_eq (h : v.Ends env w stop) : w.stack = v.stack := by
  simp only [stack, h.samePlace.1, h.samePlace.2]

theorem Stops.rests (h : v.Stops env (.halted status)) : v.stack.Rests status := by
  cases h with
  | awaits here awaits => exact .awaits here awaits
  | completed spent _ alone => exact .completed spent (by simp [stack, alone])

theorem Ends.rests (h : v.Ends env w (.halted status)) : v.stack.Rests status := by
  cases h with
  | stopped stop _ => exact (stops_of_step stop).2.2.rests

theorem Ends.room (h : v.Ends env w (.halted status)) :
    env.settings.maxAutoSteps.count ≠ some 0 := by
  cases h with
  | stopped _ room => exact room

end Walk

namespace Simulation

/-- What a simulation is after a walk that came to a place and returned there. -/
inductive Arrives (d : Simulation) (v : Walk) : Simulation → Prop where
  | rests {w : Walk} {status : Status} {log : List String}
      (ends : v.Ends d.surroundings w (.halted status)) :
      Arrives d v { d with stack := v.stack, log := log, status := status }
  | fails {w : Walk} {p : Problem} {log : List String}
      (ends : v.Ends d.surroundings w (.failed p)) :
      Arrives d v { d with
        stack := v.stack
        log := log
        status := .failed
        error := some (p.report v.stack.blamed) }

variable {d s : Simulation} {v : Walk} {r : Reply}

/-- A walk without an outcome goes on for ever, with nothing to cut it off. -/
theorem walk_eq_none_iff (d : Simulation) : d.walk = none ↔
    d.settings.maxAutoSteps.count = none ∧
      ∀ n, ((Walk.start d.stack d.log).after d.surroundings n).isSome := by
  rw [walk, Option.map_eq_none_iff]
  exact Walk.run_eq_none_iff d.stack d.log

theorem walk_ends {result : Except Escape Reply} (h : d.walk = some (s, result)) :
    ∃ k v w stop, (Walk.start d.stack d.log).after d.surroundings k = some v ∧
      v.Ends d.surroundings w stop ∧
      settle { d with status := .running } w stop = (s, result) := by
  obtain ⟨⟨w, stop⟩, run, settled⟩ := Option.map_eq_some_iff.mp h
  obtain ⟨k, v, reached, ends⟩ := Walk.run_ends run
  exact ⟨k, v, w, stop, reached, ends, settled⟩

/-- A walk that returns arrives at a place that it has come to by transitions. -/
theorem walk_arrives {P : Walk → Prop}
    (keep : ∀ {u u' : Walk}, u.Moves d.surroundings u' → P u → P u')
    (start : P (Walk.start d.stack d.log)) (h : d.walk = some (s, .ok r)) :
    ∃ v, P v ∧ d.Arrives v s ∧ r = s.reply := by
  obtain ⟨k, v, w, stop, reached, ends, settled⟩ := walk_ends h
  refine ⟨v, Walk.after_invariant keep start reached, ?_⟩
  cases stop with
  | halted status =>
    simp only [settle, ends.stack_eq, Prod.mk.injEq, Except.ok.injEq] at settled
    obtain ⟨rfl, rfl⟩ := settled
    exact ⟨.rests ends, rfl⟩
  | failed p =>
    simp only [settle, note, ends.stack_eq, Prod.mk.injEq, Except.ok.injEq] at settled
    obtain ⟨rfl, rfl⟩ := settled
    exact ⟨.fails ends, rfl⟩
  | escaped status e => cases (Prod.mk.inj settled).2

/-- However a walk ends, it leaves alone what it has no part in. -/
theorem kept_of_walk {result : Except Escape Reply} (h : d.walk = some (s, result)) :
    s.settings = d.settings ∧ s.workflow = d.workflow ∧ s.context = d.context ∧
      s.history = d.history := by
  obtain ⟨k, v, w, stop, -, -, settled⟩ := walk_ends h
  cases stop <;> cases settled <;> exact ⟨rfl, rfl, rfl, rfl⟩

/-- From a node that waits a walk gets nowhere. -/
theorem walk_of_awaits {n : Node} {status : Status} (here : d.stack.top.node? = some n)
    (awaits : n.Awaits status) (room : d.settings.maxAutoSteps.count ≠ some 0) :
    ∃ log, d.walk = some ({ d with status := status, log := log },
      .ok { d with status := status, log := log }.reply) := by
  obtain ⟨log, stop⟩ := Walk.step_of_awaits d.surroundings
    (w := Walk.start d.stack d.log) here awaits
  have run := Walk.run_of_stop stop room
  have place : Walk.stack { Walk.start d.stack d.log with log := log } = d.stack :=
    Walk.start_stack d.stack log
  refine ⟨log, ?_⟩
  simp only [surroundings] at run
  simp only [walk, run, Option.map_some, settle, place]

end Simulation

end Walkthrough
