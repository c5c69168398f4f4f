import Walkthrough.Proofs.Attempt
import Walkthrough.Proofs.Simulation.Arrival
import Walkthrough.Proofs.Simulation.Place
import Walkthrough.Proofs.Walk.Activation

/-! What ceilings do to a simulation. They end it early and do nothing else: a walk that none of
them cuts off comes to the same state under higher ones. A ceiling on loops cuts a walk off just
when one frame, from the time it was pushed, would be repeated once too often in this very walk. -/
namespace Walkthrough

namespace Simulation

def withCeilings (s : Simulation) (loops steps : Ceiling) : Simulation :=
  { s with settings := s.settings.withCeilings loops steps }

/-- A ceiling has ended the simulation. -/
def CutOff (s : Simulation) : Prop :=
  s.status = .failed ∧ ∃ e, s.error = some e ∧ e.kind = .loopLimit

variable {d s : Simulation} {v w : Walk} {stop : Stop} {result : Except Escape Reply}
  {loops loops' steps steps' : Ceiling} {m : Nat}

theorem settle_withCeilings (s : Simulation) (w : Walk) (stop : Stop) (loops steps : Ceiling) :
    (s.withCeilings loops steps).settle w stop =
      ((s.settle w stop).1.withCeilings loops steps, (s.settle w stop).2) := by
  cases stop <;> rfl

theorem escaped_ne_failed {env : Surroundings} {status : Status} {e : Escape}
    (ends : v.Ends env w (.escaped status e)) : status ≠ .failed := by
  cases ends with
  | stopped stop _ =>
    cases (Walk.stops_of_step stop).2.2 with
    | decisionFault | decisionUnlogged | whileFault | whileUnlogged | repeatFault | nameless => exact nofun

theorem settle_cutOff_iff {env : Surroundings} (ends : v.Ends env w stop) :
    (s.settle w stop).1.CutOff ↔ stop.Cut := by
  cases stop with
  | halted status =>
    have unfailed : status ≠ .failed := ends.rests.not_running.2
    exact ⟨fun cut => absurd cut.1 unfailed, nofun⟩
  | failed p =>
    constructor
    · rintro ⟨-, e, error, kind⟩
      cases error
      exact ⟨p, rfl, kind⟩
    · rintro ⟨p', same, kind⟩
      cases same
      exact ⟨rfl, _, rfl, kind⟩
  | escaped status e =>
    exact ⟨fun cut => absurd cut.1 (escaped_ne_failed ends), nofun⟩

theorem exists_cutOff_iff (d : Simulation) :
    (∃ s result, d.walk = some (s, result) ∧ s.CutOff) ↔
      ∃ w stop, (Walk.start d.stack d.log).run d.surroundings = some (w, stop) ∧ stop.Cut := by
  constructor
  · rintro ⟨s, result, walked, cut⟩
    obtain ⟨⟨w, stop⟩, run, settled⟩ := Option.map_eq_some_iff.mp walked
    obtain ⟨k, v, -, ends⟩ := Walk.run_ends run
    have first : (settle { d with status := .running } w stop).1 = s := congrArg Prod.fst settled
    exact ⟨w, stop, run, (settle_cutOff_iff ends).mp (first ▸ cut)⟩
  · rintro ⟨w, stop, run, cut⟩
    obtain ⟨k, v, -, ends⟩ := Walk.run_ends run
    exact ⟨_, _, Option.map_eq_some_iff.mpr ⟨(w, stop), run, rfl⟩, (settle_cutOff_iff ends).mpr cut⟩

theorem walk_relaxed (loops_le : loops.Within loops') (steps_le : steps.Within steps')
    (uncut : ∀ s result, (d.withCeilings loops steps).walk = some (s, result) → ¬s.CutOff) :
    (d.withCeilings loops' steps').walk = (d.withCeilings loops steps).walk.map fun (s, result) =>
      (s.withCeilings loops' steps', result) := by
  have same := Walk.run_relaxed d.surroundings loops_le steps_le d.stack d.log
    fun w stop run cut => by
      obtain ⟨s, result, walked, failed⟩ :=
        (exists_cutOff_iff (d.withCeilings loops steps)).mpr ⟨w, stop, run, cut⟩
      exact uncut s result walked failed
  have left : (d.withCeilings loops' steps').walk =
      ((Walk.start d.stack d.log).run (d.surroundings.withCeilings loops' steps')).map
        fun r => settle { d.withCeilings loops' steps' with status := .running } r.1 r.2 :=
    rfl
  have right : (d.withCeilings loops steps).walk =
      ((Walk.start d.stack d.log).run (d.surroundings.withCeilings loops steps)).map
        fun r => settle { d.withCeilings loops steps with status := .running } r.1 r.2 :=
    rfl
  rw [left, right, same, Option.map_map]
  congr 1
  funext r
  obtain ⟨w, stop⟩ := r
  exact settle_withCeilings { d.withCeilings loops steps with status := .running } w stop _ _

/-- Ceilings only ever cut a walk short, and the one on loops exactly where it says. -/
theorem ceilings_only_cut (d : Simulation) :
    (∀ loops steps loops' steps', loops.Within loops' → steps.Within steps' →
      (∀ s result, (d.withCeilings loops steps).walk = some (s, result) → ¬s.CutOff) →
      (d.withCeilings loops' steps').walk =
        (d.withCeilings loops steps).walk.map fun (s, result) =>
          (s.withCeilings loops' steps', result)) ∧
    ∀ loops steps m, loops.count = some m → steps.count = none →
      ((∃ s result, (d.withCeilings loops steps).walk = some (s, result) ∧ s.CutOff) ↔
        (Walk.start d.stack d.log).Repeated (d.withCeilings .without .without).surroundings
          (m + 1)) := by
  constructor
  · intro loops steps loops' steps' loops_le steps_le uncut
    exact walk_relaxed loops_le steps_le uncut
  · intro loops steps m limit free
    rw [exists_cutOff_iff]
    exact Walk.run_cut_iff d.surroundings limit free d.stack d.log

open Sample in
/-- The survey asks again after one repetition, however many more are allowed. Idle loops would
repeat one frame three times, so two times are too few. -/
theorem ceilings_only_cut_rounds :
    (∃ s d, begin? {} noon survey = some s ∧ d = s.past "" (s.context.withReplies []) ∧
      (d.withCeilings (.ofNat 1) (.ofNat 9)).walk.isSome = true ∧
      (d.withCeilings (.ofNat 4) .without).walk =
        (d.withCeilings (.ofNat 1) (.ofNat 9)).walk.map fun (s, result) =>
          (s.withCeilings (.ofNat 4) .without, result)) ∧
    ∃ nodes, readWorkflow rounds = .ok nodes ∧
      (Walk.start (.ofWorkflow nodes) []).Repeated ⟨{}, .empty noon⟩ 3 := by
  constructor
  · have led : (begin? {} noon survey).any (fun s =>
        ((s.past "" (s.context.withReplies [])).withCeilings (.ofNat 1) (.ofNat 9)).walk.any
          fun r => r.1.status == .awaitingInput) = true := by decide +kernel
    obtain ⟨s, begun, walks⟩ := (Option.any_eq_true _ _).mp led
    obtain ⟨r, walked, waits⟩ := (Option.any_eq_true _ _).mp walks
    refine ⟨s, _, begun, rfl, by simp [walked], ?_⟩
    refine (ceilings_only_cut _).1 (.ofNat 1) (.ofNat 9) (.ofNat 4) .without ?_ ?_ ?_
    · exact Ceiling.within_ofNat.mpr (.inr (by decide))
    · exact Ceiling.within_without _
    · intro s' result walked' cut
      cases walked.symm.trans walked'
      cases (eq_of_beq waits).symm.trans cut.1
  · have led : (readWorkflow rounds).toOption.any (fun nodes =>
        ((fresh {} noon nodes []).withCeilings (.ofNat 2) .without).walk.any fun r =>
          r.1.status == .failed && r.1.error.any fun e => e.kind == .loopLimit) = true := by
      decide +kernel
    obtain ⟨nodes, given, walks⟩ := (Option.any_eq_true _ _).mp led
    obtain ⟨⟨s, result⟩, walked, failed⟩ := (Option.any_eq_true _ _).mp walks
    have cut : s.CutOff := by
      simpa [CutOff, Option.any_eq_true] using failed
    exact ⟨nodes, eq_ok_of_toOption given,
      ((ceilings_only_cut (fresh {} noon nodes [])).2 (.ofNat 2) .without 2 rfl rfl).mp
        ⟨s, result, walked, cut⟩⟩

end Simulation

end Walkthrough
