import Walkthrough.Proofs.Attempt
import Walkthrough.Proofs.Simulation.Admission
import Walkthrough.Proofs.Walk.Ceiling

/-! How far walks go when nothing but the repetitions of loops is limited. Every block is part of the
work of the node that owns it, so what lies ahead of a place is never more than the work of the
whole workflow, wherever in it the place is and whatever conditions say. -/
namespace Walkthrough

variable {locale : Scalar} {workflow : List Node}

theorem Frame.OwnedBy.ahead_lt {f : Frame} {n : Node} (owned : f.OwnedBy locale n) (m : Nat) :
    Active.ahead m ⟨f, 0⟩ < n.work m := by
  have rest := Node.workAll_drop_le m f.index f.nodes
  cases n with
  | decision id e yes no =>
    obtain ⟨kind, -, rfl | rfl⟩ := owned
    · simp only [Active.ahead, kind, Node.work]
      omega
    · simp only [Active.ahead, kind, Node.work]
      omega
  | whileLoop id e actions | doWhile id e actions =>
    obtain ⟨kind, rfl⟩ := owned
    simp only [Active.ahead, kind, Node.work, Nat.sub_zero, Nat.succ_mul]
    omega
  | interaction | call | unknown => exact absurd owned not_false

/-- What lies ahead of a place is part of the work of the workflow. -/
theorem Frame.Nested.ahead_le {f : Frame} {below : List Frame}
    (nested : f.Nested locale workflow below) (m : Nat) :
    Active.ahead m ⟨f, 0⟩ + Active.aheadAll m (below.map fun g => ⟨g, 0⟩) ≤
      Node.workAll m workflow := by
  induction nested with
  | @root f kind nodes =>
    have rest := Node.workAll_drop_le m f.index f.nodes
    simpa only [Active.ahead, kind, nodes, Active.aheadAll, List.map_nil, Nat.add_zero] using rest
  | @block f parent rest n here owned lower ih =>
    have less := owned.ahead_lt m
    have split : Active.ahead m ⟨parent, 0⟩ = n.work m + Active.ahead m ⟨parent.advance, 0⟩ :=
      Active.ahead_of_here here m
    have upper : Active.aheadAll m ((parent :: rest).map fun g => ⟨g, 0⟩) =
        Active.ahead m ⟨parent.advance, 0⟩ + Active.aheadAll m (rest.map fun g => ⟨g, 0⟩) := rfl
    omega

theorem Stack.Nested.ahead_le {stack : Stack} (nested : stack.Nested locale workflow) (m : Nat)
    (log : List String) : (Walk.start stack log).ahead m ≤ Node.workAll m workflow :=
  nested.frames.ahead_le m

namespace Walk

variable {env : Surroundings} {w : Walk} {m n : Nat} {stack : Stack}

/-- A walk that does not go so far has stopped on the way. -/
theorem exists_stop (ends : w.after env n = none) :
    ∃ k v u stop, w.after env k = some v ∧ v.step env = .stop u stop := by
  induction n generalizing w with
  | zero => cases ends
  | succ n ih =>
    cases step : w.step env with
    | go w' =>
      rw [after_succ_of_go step] at ends
      obtain ⟨k, v, u, stop, reached, stops⟩ := ih ends
      exact ⟨k + 1, v, u, stop, (after_succ_of_go step).trans reached, stops⟩
    | stop u s => exact ⟨0, w, u, s, rfl, step⟩

/-- With a ceiling on loops a walk stops within the work of its workflow. -/
theorem stops_of_nested (env : Surroundings)
    (limit : env.settings.maxLoopIterations.count = some m)
    (nested : stack.Nested locale workflow) (log : List String) :
    ∃ k < Node.workAll m workflow, ∃ v w stop, (start stack log).after env k = some v ∧
      v.step env = .stop w stop := by
  have few {i : Nat} {u : Walk} (reached : (start stack log).after env i = some u) :
      u.top.passes ≤ m :=
    few_of_ceiling limit (Nat.le_refl m) (start_few m stack log) reached u.top
      (List.mem_cons_self ..)
  have used {k : Nat} {v : Walk} (reached : (start stack log).after env k = some v) :
      k < Node.workAll m workflow := by
    have ahead := after_ahead_le (fun i _ u => few) reached
    have whole := nested.ahead_le m log
    have left := Active.ahead_pos m v.top
    simp only [Walk.ahead] at ahead whole
    omega
  -- the last transition that the walk comes to is the one that stops
  have ends : (start stack log).after env (Node.workAll m workflow) = none := by
    rw [← Option.not_isSome_iff_eq_none, Option.isSome_iff_exists]
    rintro ⟨v, reached⟩
    exact Nat.lt_irrefl _ (used reached)
  obtain ⟨k, v, w, stop, reached, stops⟩ := exists_stop ends
  exact ⟨k, used reached, v, w, stop, reached, stops⟩

end Walk

namespace Simulation

/-- All places, the saved ones too, are places in the workflow. -/
structure Placed (settings : Settings) (s : Simulation) : Prop where
  same : s.settings = settings
  place : s.stack.Nested settings.locale s.workflow
  saved : ∀ snapshot ∈ s.history, snapshot.stack.Nested settings.locale s.workflow

/-- A place from which a walk sets out: the beginning of a workflow, or wherever a call leads. -/
inductive SetsOut (settings : Settings) : Simulation → Prop where
  | created {now : Instant} {document : Data} {nodes : List Node} {log : List String}
      (denotes : Denotes document nodes) : SetsOut settings (fresh settings now nodes log)
  | called {s d : Simulation} {c : Call} (driven : Driven settings s) (departs : s.Departs c d) :
      SetsOut settings d

variable {settings : Settings} {s s' d : Simulation} {c : Call} {result : Except Escape Reply}

theorem placed_fresh (settings : Settings) (now : Instant) (nodes : List Node)
    (log : List String) : (fresh settings now nodes log).Placed settings :=
  ⟨rfl, Stack.nested_ofWorkflow _ _, nofun⟩

theorem Placed.past {n : Node} {line : String} {context : Context} (placed : s.Placed settings)
    (waits : s.current = .node n) : (s.past line context).Placed settings := by
  obtain ⟨-, here⟩ := current_eq_node waits
  refine ⟨placed.same, placed.place.advance here, fun snapshot member => ?_⟩
  rcases List.mem_cons.mp member with newest | older
  · exact newest ▸ placed.place
  · exact placed.saved snapshot older

theorem Placed.departs (placed : s.Placed settings) (departs : s.Departs c d) :
    d.Placed settings := by
  cases departs with
  | values waits _ _ _ => exact placed.past waits
  | response waits _ _ => exact placed.past waits
  | @back snapshot rest line saved =>
    have kept := saved ▸ placed.saved
    exact ⟨placed.same, kept snapshot (List.mem_cons_self ..),
      fun older member => kept older (List.mem_cons_of_mem _ member)⟩
  | reset _ => exact placed.same ▸ placed_fresh _ _ _ _

theorem Placed.walk (placed : d.Placed settings) (h : d.walk = some (s, result)) :
    s.Placed settings := by
  obtain ⟨same, workflow, -, history⟩ := kept_of_walk h
  obtain ⟨k, v, w, stop, reached, ends, settled⟩ := walk_ends h
  have locale : d.surroundings.settings.locale = settings.locale :=
    congrArg Settings.locale placed.same
  have place : v.stack.Nested settings.locale d.workflow :=
    Walk.after_invariant (P := fun v => v.stack.Nested settings.locale d.workflow)
      (fun moves nested => locale ▸ moves.nested (locale.symm ▸ nested))
      (by simpa using placed.place) reached
  have stack : s.stack = v.stack := by
    cases stop <;> cases settled <;> exact ends.stack_eq
  exact ⟨same.trans placed.same, stack ▸ workflow ▸ place,
    history ▸ workflow ▸ placed.saved⟩

theorem Placed.perform (placed : s.Placed settings) (h : s.perform c = .ok (some (s', result))) :
    s'.Placed settings := by
  obtain ⟨o, outcome⟩ : ∃ o, o = some (s', result) := ⟨_, rfl⟩
  rw [← outcome] at h
  cases perform_performs h with
  | refused _ | raised _ _ =>
    cases outcome
    exact placed
  | departed departs => exact (placed.departs departs).walk outcome

theorem Driven.placed (driven : Driven settings s) : s.Placed settings := by
  induction driven with
  | created begun =>
    obtain ⟨nodes, log, -, walked⟩ := ofDocument_eq begun
    exact (placed_fresh settings _ nodes log).walk walked.symm
  | called _ h ih => exact ih.perform h

theorem SetsOut.placed (setsOut : SetsOut settings d) : d.Placed settings := by
  cases setsOut with
  | created _ => exact placed_fresh _ _ _ _
  | called driven departs => exact driven.placed.departs departs

/-- With a ceiling on loops and none on transitions, a walk from any place in a workflow stops within
a number of transitions that the workflow and the ceiling give. So does every walk that a call sets
off. -/
theorem stops_within_work {m : Nat} (limit : settings.maxLoopIterations.count = some m)
    (free : settings.maxAutoSteps.count = none) :
    (∀ workflow stack context log, stack.Nested settings.locale workflow →
      ∃ k < Node.workAll m workflow, ∃ v w stop,
        (Walk.start stack log).after ⟨settings, context⟩ k = some v ∧
          v.step ⟨settings, context⟩ = .stop w stop ∧
          (Walk.start stack log).run ⟨settings, context⟩ = some (w, stop)) ∧
    ∀ d, SetsOut settings d → d.settings = settings ∧
      d.stack.Nested settings.locale d.workflow ∧ ∃ s result, d.walk = some (s, result) := by
  have stops (workflow stack context log) (nested : stack.Nested settings.locale workflow) :
      ∃ k < Node.workAll m workflow, ∃ v w stop,
        (Walk.start stack log).after ⟨settings, context⟩ k = some v ∧
          v.step ⟨settings, context⟩ = .stop w stop ∧
          (Walk.start stack log).run ⟨settings, context⟩ = some (w, stop) := by
    obtain ⟨k, less, v, w, stop, reached, stops⟩ :=
      Walk.stops_of_nested ⟨settings, context⟩ limit nested log
    exact ⟨k, less, v, w, stop, reached, stops,
      Walk.run_of_after reached stops (Ceiling.allows_of_count_none free)⟩
  refine ⟨stops, fun d setsOut => ?_⟩
  obtain ⟨rfl, place, -⟩ := setsOut.placed
  obtain ⟨k, -, v, w, stop, -, -, run⟩ := stops d.workflow d.stack d.context d.log place
  exact ⟨rfl, place, _, _, Option.map_eq_some_iff.mpr ⟨(w, stop), run, rfl⟩⟩

open Sample in
/-- Idle loops within loops that always go on stop within seventeen transitions. -/
theorem stops_within_work_rounds : ∃ nodes, readWorkflow rounds = .ok nodes ∧
    (∃ k < 17, ∃ v w stop,
      (Walk.start (.ofWorkflow nodes) []).after ⟨{ maxLoopIterations := .ofNat 2 }, .empty noon⟩ k =
        some v ∧
      v.step ⟨{ maxLoopIterations := .ofNat 2 }, .empty noon⟩ = .stop w stop ∧
      (Walk.start (.ofWorkflow nodes) []).run ⟨{ maxLoopIterations := .ofNat 2 }, .empty noon⟩ =
        some (w, stop)) ∧
    ∃ s result, (fresh { maxLoopIterations := .ofNat 2 } noon nodes []).walk = some (s, result) := by
  have led : (readWorkflow rounds).toOption.any (fun nodes => Node.workAll 2 nodes == 17) = true := by
    decide +kernel
  obtain ⟨nodes, given, work⟩ := (Option.any_eq_true _ _).mp led
  have read := eq_ok_of_toOption given
  have both := @stops_within_work { maxLoopIterations := .ofNat 2 } 2 rfl rfl
  have within := both.1 nodes (.ofWorkflow nodes) (.empty noon) [] (Stack.nested_ofWorkflow _ _)
  rw [eq_of_beq work] at within
  exact ⟨nodes, read, within, (both.2 _ (.created (.inr read))).2.2⟩

end Simulation

end Walkthrough
