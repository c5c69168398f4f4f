import Walkthrough.Proofs.Simulation.Call

/-! The log is written and never read: two simulations that differ in nothing but their logs answer
every call alike and stay alike. -/
namespace Walkthrough

def Walk.unlogged (w : Walk) : Walk := { w with log := [] }

def Step.unlogged : Step → Step
  | .go w => .go w.unlogged
  | .stop w s => .stop w.unlogged s

namespace Walk

variable {env : Surroundings}

theorem unlogged_unlogged (w : Walk) : w.unlogged = w.unlogged.unlogged := rfl

theorem unlessFault_unlogged {α : Type} {w : Walk} {f g : α → Step}
    (each : ∀ a, (f a).unlogged = (g a).unlogged) (r : Except Fault α) :
    (w.unlessFault r f).unlogged = (w.unlogged.unlessFault r g).unlogged := by
  cases r with
  | error e => exact congrArg (Step.stop · _) w.unlogged_unlogged
  | ok a => exact each a

theorem leave_unlogged (env : Surroundings) (w : Walk) (log : List String) :
    (leave env { w with log := log }).unlogged = (leave env w.unlogged).unlogged := by
  cases below : w.below <;> simp [leave, below, unlogged, Step.unlogged, note]

theorem atEnd_unlogged (w : Walk) : (w.atEnd env).unlogged = (w.unlogged.atEnd env).unlogged := by
  simp only [atEnd, unlogged]
  split
  · rename_i owner e kind
    refine unlessFault_unlogged (fun repeated => ?_) _
    cases repeated with
    | true =>
      simp only [↓reduceIte, again]
      split <;> rfl
    | false =>
      have left := leave_unlogged env w
      exact (left _).trans (left _).symm
  · exact leave_unlogged env w w.log

theorem atNode_unlogged (w : Walk) (n : Node) :
    (w.atNode env n).unlogged = (w.unlogged.atNode env n).unlogged := by
  cases n with
  | decision id e yes no =>
    refine unlessFault_unlogged (fun taken => unlessFault_unlogged (fun line => ?_) _) _
    generalize (if taken then yes else no) = block
    dsimp only
    split <;> rfl
  | whileLoop id e actions =>
    refine unlessFault_unlogged (fun listed => unlessFault_unlogged (fun taken => ?_) _) _
    cases taken <;> rfl
  | call id name response ended =>
    simp only [atNode]
    split <;> rfl
  | doWhile => rfl
  | interaction => rfl
  | unknown => rfl

theorem step_unlogged (env : Surroundings) (w : Walk) :
    (w.step env).unlogged = (w.unlogged.step env).unlogged := by
  cases here : w.top.frame.node? with
  | some n =>
    simp only [step, here, unlogged]
    exact atNode_unlogged w n
  | none =>
    simp only [step, here, unlogged]
    exact atEnd_unlogged w

/-- A stopped walk and how it stopped, without the log. -/
def bare (r : Walk × Stop) : Walk × Stop := (r.1.unlogged, r.2)

theorem runWithin_unlogged (n : Nat) {w v : Walk} (same : w.unlogged = v.unlogged) :
    (w.runWithin env n).map bare = (v.runWithin env n).map bare := by
  induction n generalizing w v with
  | zero => rfl
  | succ n ih =>
    have step := (step_unlogged env w).trans (same ▸ (step_unlogged env v).symm)
    simp only [runWithin]
    cases left : w.step env <;> cases right : v.step env <;>
      simp only [left, right, Step.unlogged, Step.go.injEq, Step.stop.injEq, reduceCtorEq] at step
    · exact ih step
    · simp [bare, step]

theorem runCapped_unlogged (n : Nat) {w v : Walk} (same : w.unlogged = v.unlogged) :
    bare (w.runCapped env n) = bare (v.runCapped env n) := by
  induction n generalizing w v with
  | zero => simp [runCapped, bare, same]
  | succ n ih =>
    have step := (step_unlogged env w).trans (same ▸ (step_unlogged env v).symm)
    simp only [runCapped]
    cases left : w.step env <;> cases right : v.step env <;>
      simp only [left, right, Step.unlogged, Step.go.injEq, Step.stop.injEq, reduceCtorEq] at step
    · exact ih step
    · simp [bare, step]

theorem run_unlogged (env : Surroundings) {w v : Walk} (same : w.unlogged = v.unlogged) :
    (w.run env).map bare = (v.run env).map bare := by
  simp only [run]
  split
  · exact congrArg some (runCapped_unlogged _ same)
  · have bound : w.bound env.settings = v.bound env.settings := by
      obtain ⟨top, below, log⟩ := w
      cases same
      rfl
    rw [bound]
    exact runWithin_unlogged _ same

end Walk

def Simulation.unlogged (s : Simulation) : Simulation := { s with log := [] }

def Outcome.unlogged (o : Outcome) : Outcome := o.map fun r => (r.1.unlogged, r.2)

theorem Outcome.of_unlogged {o o' : Outcome} {s : Simulation} {result : Except Escape Reply}
    (same : Outcome.unlogged o = Outcome.unlogged o') (h : o = some (s, result)) :
    ∃ t, o' = some (t, result) ∧ t.unlogged = s.unlogged := by
  subst h
  cases o' with
  | none => cases same
  | some q =>
    obtain ⟨t, other⟩ := q
    simp only [Outcome.unlogged, Option.map_some, Option.some.injEq, Prod.mk.injEq] at same
    exact ⟨t, by rw [same.2], same.1.symm⟩

namespace Simulation

variable {s t : Simulation}

theorem settle_unlogged {w v : Walk} (stop : Stop) (same : s.unlogged = t.unlogged)
    (place : w.unlogged = v.unlogged) :
    ((s.settle w stop).1.unlogged, (s.settle w stop).2) =
      ((t.settle v stop).1.unlogged, (t.settle v stop).2) := by
  obtain ⟨settings, workflow, stack, context, history, status, error, log⟩ := s
  obtain ⟨top, below, lines⟩ := w
  cases same
  cases place
  cases stop <;> rfl

theorem walk_unlogged (same : s.unlogged = t.unlogged) :
    Outcome.unlogged s.walk = Outcome.unlogged t.walk := by
  obtain ⟨settings, workflow, stack, context, history, status, error, log⟩ := s
  cases same
  have runs := Walk.run_unlogged ⟨t.settings, t.context⟩
    (w := Walk.start t.stack log) (v := Walk.start t.stack t.log) rfl
  simp only [walk, Outcome.unlogged, Option.map_map]
  cases left : (Walk.start t.stack log).run ⟨t.settings, t.context⟩ <;>
    cases right : (Walk.start t.stack t.log).run ⟨t.settings, t.context⟩ <;>
    simp only [left, right, Option.map_some, Option.map_none, Option.some.injEq, reduceCtorEq,
      Walk.bare, Prod.mk.injEq] at runs
  · rfl
  · obtain ⟨place, stop⟩ := runs
    simp only [Option.map_some, Function.comp_apply, stop, Option.some.injEq]
    exact settle_unlogged _ rfl place

theorem current_unlogged (same : s.unlogged = t.unlogged) : s.current = t.current := by
  have unread (u : Simulation) : u.current = u.unlogged.current := rfl
  rw [unread s, unread t, same]

theorem reject_unlogged (same : s.unlogged = t.unlogged) (p : Problem) :
    Outcome.unlogged (s.reject p) = Outcome.unlogged (t.reject p) := by
  obtain ⟨settings, workflow, stack, context, history, status, error, log⟩ := s
  cases same
  rfl

theorem refusal_unlogged (same : s.unlogged = t.unlogged) (wanted : String) :
    s.refusal wanted = t.refusal wanted := by
  obtain ⟨settings, workflow, stack, context, history, status, error, log⟩ := s
  cases same
  rfl

theorem commit_unlogged (same : s.unlogged = t.unlogged) (line : String) (context : Context) :
    Outcome.unlogged ((s.note line).commit context) =
      Outcome.unlogged ((t.note line).commit context) := by
  obtain ⟨settings, workflow, stack, context, history, status, error, log⟩ := s
  cases same
  exact walk_unlogged rfl

theorem submit_unlogged (same : s.unlogged = t.unlogged) (values : Data) :
    Outcome.unlogged (s.submit values) = Outcome.unlogged (t.submit values) := by
  have context : s.context = t.context := (mk.inj same).2.2.2.1
  simp only [submit, current_unlogged same]
  split
  · split
    · simp only [Outcome.unlogged, Option.map_some, same]
    · split
      · split
        · simp only [Outcome.unlogged, Option.map_some, same]
        · rw [context]
          exact commit_unlogged same _ _
      · exact reject_unlogged same _
  · rw [refusal_unlogged same]
    exact reject_unlogged same _

theorem respond_unlogged (same : s.unlogged = t.unlogged) (given payload : Data) :
    Outcome.unlogged (s.respond given payload) = Outcome.unlogged (t.respond given payload) := by
  have context : s.context = t.context := (mk.inj same).2.2.2.1
  simp only [respond, current_unlogged same]
  split
  · split
    · simp only [Outcome.unlogged, Option.map_some, same]
    · split
      · rw [context]
        exact commit_unlogged same _ _
      · exact reject_unlogged same _
  · rw [refusal_unlogged same]
    exact reject_unlogged same _

theorem take_unlogged (same : s.unlogged = t.unlogged) (a : Answer) :
    Outcome.unlogged (s.take a) = Outcome.unlogged (t.take a) := by
  cases a with
  | values values => exact submit_unlogged same values
  | response given payload => exact respond_unlogged same given payload

theorem goBack_unlogged (same : s.unlogged = t.unlogged) :
    Outcome.unlogged s.goBack = Outcome.unlogged t.goBack := by
  have history : s.history = t.history := (mk.inj same).2.2.2.2.1
  simp only [goBack, history]
  split
  · exact reject_unlogged same _
  · obtain ⟨settings, workflow, stack, context, history, status, error, log⟩ := s
    cases same
    exact walk_unlogged rfl

end Simulation

end Walkthrough
