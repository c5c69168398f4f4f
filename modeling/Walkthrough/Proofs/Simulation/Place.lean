import Walkthrough.Proofs.Simulation.Arrival

/-! The place of a simulation. Its frames nest: the lowest one ranges over the workflow, every other
one is a block of the node at which the frame below it stands. Transitions keep the nesting, saved
places have it too, and status, error and place belong together in every state that calls reach. -/
namespace Walkthrough

def Frame.OwnedBy (locale : Scalar) (f : Frame) : Node → Prop
  | .decision id _ yes no => f.kind = .branch id ∧ f.nodes ≠ [] ∧ (f.nodes = yes ∨ f.nodes = no)
  | .whileLoop id e actions => f.kind = .loop id (localized e locale) ∧ f.nodes = actions
  | .doWhile id e actions => f.kind = .loop id (localized e locale) ∧ f.nodes = actions
  | _ => False

/-- Frames from the top down, each owned by the current node of the next. -/
inductive Frame.Nested (locale : Scalar) (workflow : List Node) : Frame → List Frame → Prop where
  | root {f : Frame} (kind : f.kind = .root) (nodes : f.nodes = workflow) :
      Nested locale workflow f []
  | block {f parent : Frame} {rest : List Frame} {n : Node} (here : parent.node? = some n)
      (owned : f.OwnedBy locale n) (below : Nested locale workflow parent rest) :
      Nested locale workflow f (parent :: rest)

/-- A place in a workflow; the top frame may be exhausted, but not passed. -/
structure Stack.Nested (locale : Scalar) (workflow : List Node) (stack : Stack) : Prop where
  frames : stack.top.Nested locale workflow stack.below
  inside : stack.top.index ≤ stack.top.nodes.length

theorem Frame.OwnedBy.kind_ne_root {locale : Scalar} {f : Frame} {n : Node}
    (h : f.OwnedBy locale n) : f.kind ≠ .root := by
  cases n <;> simp_all [OwnedBy]

/-- Neither the cursor of a frame nor what is above it has a part in who owns it. -/
theorem Frame.Nested.of_same {locale : Scalar} {workflow : List Node} {f g : Frame}
    {below : List Frame} (h : f.Nested locale workflow below) (nodes : g.nodes = f.nodes)
    (kind : g.kind = f.kind) : g.Nested locale workflow below := by
  cases h with
  | root isRoot whole => exact .root (kind.trans isRoot) (nodes.trans whole)
  | @block _ parent rest n here owned below =>
    refine .block here ?_ below
    cases n <;> simp_all [OwnedBy]

theorem Frame.index_lt {f : Frame} {n : Node} (here : f.node? = some n) :
    f.index < f.nodes.length :=
  (List.getElem?_eq_some_iff.mp here).1

theorem Node.Opens.owned {env : Surroundings} {n : Node} {block : List Node} {kind : FrameKind}
    (h : n.Opens env block kind) (index : Nat) :
    Frame.OwnedBy env.settings.locale ⟨block, index, kind⟩ n := by
  cases h with
  | branch taken _ filled =>
    refine ⟨rfl, filled, ?_⟩
    cases taken
    · exact .inr rfl
    · exact .inl rfl
  | whileLoop _ => exact ⟨rfl, rfl⟩
  | doWhile => exact ⟨rfl, rfl⟩

namespace Stack

variable {locale : Scalar} {workflow : List Node} {stack : Stack}

theorem nested_ofWorkflow (locale : Scalar) (nodes : List Node) :
    (Stack.ofWorkflow nodes).Nested locale nodes :=
  ⟨.root rfl rfl, Nat.zero_le _⟩

theorem Nested.advance {n : Node} (h : stack.Nested locale workflow)
    (here : stack.top.node? = some n) : stack.advance.Nested locale workflow :=
  ⟨h.frames.of_same rfl rfl, Frame.index_lt here⟩

end Stack

theorem Walk.Moves.nested {env : Surroundings} {workflow : List Node} {w w' : Walk}
    (h : w.Moves env w') (nested : w.stack.Nested env.settings.locale workflow) :
    w'.stack.Nested env.settings.locale workflow := by
  cases h with
  | opens here opened => exact ⟨.block here (opened.owned 0) nested.frames, Nat.zero_le _⟩
  | passes here _ => exact nested.advance here
  | again _ _ _ _ => exact ⟨nested.frames.of_same rfl rfl, Nat.zero_le _⟩
  | @leaves parent rest log _ _ below =>
    -- the parent stood at the owner of the frame that is left, so it can go one further
    have frames := nested.frames
    simp only [Walk.stack, below, List.map_cons] at frames
    cases frames with
    | block here _ lower => exact ⟨lower.of_same rfl rfl, Frame.index_lt here⟩

/-- The nesting of frames as a reader sees it, from the bottom up. -/
structure Stack.Sound (locale : Scalar) (workflow : List Node) (stack : Stack) : Prop where
  bottom : ∃ f above, stack.frames = f :: above ∧ f.kind = .root ∧ f.nodes = workflow ∧
    ∀ g ∈ above, g.kind ≠ .root
  inside : ∀ f ∈ stack.frames, f.index ≤ f.nodes.length
  owned : ∀ front lower upper back, stack.frames = front ++ lower :: upper :: back →
    lower.index < lower.nodes.length ∧ ∃ n, lower.node? = some n ∧ upper.OwnedBy locale n

namespace Frame

variable {locale : Scalar} {workflow : List Node} {f : Frame} {below : List Frame}

theorem Nested.bottom (h : f.Nested locale workflow below) :
    ∃ g above, (f :: below).reverse = g :: above ∧ g.kind = .root ∧ g.nodes = workflow ∧
      ∀ e ∈ above, e.kind ≠ .root := by
  induction h with
  | root kind nodes => exact ⟨_, [], rfl, kind, nodes, nofun⟩
  | @block f parent rest n here owned lower ih =>
    obtain ⟨g, above, frames, kind, nodes, others⟩ := ih
    refine ⟨g, above ++ [f], ?_, kind, nodes, ?_⟩
    · rw [List.reverse_cons, frames, List.cons_append]
    · intro e member
      rcases List.mem_append.mp member with older | newest
      · exact others e older
      · cases List.mem_singleton.mp newest
        exact owned.kind_ne_root

theorem Nested.inside (h : f.Nested locale workflow below) :
    ∀ g ∈ below, g.index < g.nodes.length := by
  induction h with
  | root _ _ => exact nofun
  | block here _ _ ih =>
    intro g member
    rcases List.mem_cons.mp member with parent | lower
    · exact parent ▸ index_lt here
    · exact ih g lower

theorem Nested.owned {front back : List Frame} {upper lower : Frame}
    (h : f.Nested locale workflow below) (split : f :: below = front ++ upper :: lower :: back) :
    lower.index < lower.nodes.length ∧ ∃ n, lower.node? = some n ∧ upper.OwnedBy locale n := by
  induction h generalizing front with
  | root _ _ => cases front <;> simp at split
  | block here owned _ ih =>
    cases front with
    | nil =>
      simp only [List.nil_append, List.cons.injEq] at split
      obtain ⟨rfl, rfl, rfl⟩ := split
      exact ⟨index_lt here, _, here, owned⟩
    | cons e front => exact ih (List.cons.inj split).2

end Frame

theorem Stack.Nested.sound {locale : Scalar} {workflow : List Node} {stack : Stack}
    (h : stack.Nested locale workflow) : stack.Sound locale workflow := by
  have frames : stack.frames = (stack.top :: stack.below).reverse := by simp [Stack.frames]
  refine ⟨frames ▸ h.frames.bottom, ?_, ?_⟩
  · intro f member
    rw [frames, List.mem_reverse] at member
    rcases List.mem_cons.mp member with top | lower
    · exact top ▸ h.inside
    · exact Nat.le_of_lt (h.frames.inside f lower)
  · intro front lower upper back split
    have reversed := congrArg List.reverse (frames.symm.trans split)
    simp only [List.reverse_reverse, List.reverse_append, List.reverse_cons, List.append_assoc,
      List.cons_append, List.nil_append] at reversed
    exact h.frames.owned reversed

theorem Node.Awaits.cases_on_status {n : Node} {status : Status} (h : n.Awaits status) :
    (status = .awaitingInput ∧ ∃ id prompt fields ended, n = .interaction id prompt fields ended) ∨
      (status = .awaitingCall ∧ ∃ id name response ended, n = .call id name response ended) := by
  cases h with
  | interaction => exact .inl ⟨rfl, _, _, _, _, rfl⟩
  | call _ => exact .inr ⟨rfl, _, _, _, _, rfl⟩

namespace Simulation

/-- The places of a simulation nest, and what was saved stood at a node that waits. -/
structure Framed (s : Simulation) : Prop where
  place : s.stack.Nested s.settings.locale s.workflow
  saved : ∀ snapshot ∈ s.history, snapshot.stack.Nested s.settings.locale s.workflow ∧
    ∃ n status, snapshot.stack.top.node? = some n ∧ n.Awaits status

/-- Between calls a simulation has failed with an error, or it rests without one. -/
structure Settled (s : Simulation) : Prop extends s.Framed where
  rests : (s.status = .failed ∧ s.error.isSome) ∨
    (s.error = none ∧ s.stack.Rests s.status ∧ s.settings.maxAutoSteps.count ≠ some 0)

variable {s s' d : Simulation} {c : Call} {a : Answer} {r : Reply}

theorem current_eq_node {n : Node} (h : s.current = .node n) :
    (s.status = .awaitingInput ∨ s.status = .awaitingCall) ∧ s.stack.top.node? = some n := by
  cases status : s.status
  case awaitingInput | awaitingCall =>
    cases here : s.stack.top.node? with
    | none => simp [current, status, here] at h
    | some m =>
      simp only [current, status, here, Current.node.injEq] at h
      simp [h]
  all_goals simp [current, status] at h

theorem Settled.awaits {n : Node} (h : s.Settled) (waits : s.current = .node n) :
    s.stack.top.node? = some n ∧ n.Awaits s.status ∧ s.error = none ∧
      s.settings.maxAutoSteps.count ≠ some 0 := by
  obtain ⟨status, here⟩ := current_eq_node waits
  rcases h.rests with ⟨failed, _⟩ | ⟨clean, rests, room⟩
  · rcases status with status | status <;> cases failed.symm.trans status
  · exact ⟨here, rests.awaits_of_node here, clean, room⟩

theorem Settled.framed_past {n : Node} {line : String} {context : Context} (h : s.Settled)
    (waits : s.current = .node n) : (s.past line context).Framed ∧
      (s.past line context).error = none := by
  obtain ⟨here, awaits, clean, -⟩ := h.awaits waits
  refine ⟨⟨h.place.advance here, ?_⟩, clean⟩
  intro snapshot member
  rcases List.mem_cons.mp member with newest | older
  · subst newest
    exact ⟨h.place, n, s.status, here, awaits⟩
  · exact h.saved snapshot older

theorem framed_fresh (settings : Settings) (now : Instant) (nodes : List Node)
    (log : List String) : (fresh settings now nodes log).Framed :=
  ⟨Stack.nested_ofWorkflow _ _, nofun⟩

theorem Settled.departs (h : s.Settled) (departs : s.Departs c d) : d.Framed ∧ d.error = none := by
  cases departs with
  | values waits _ _ _ => exact h.framed_past waits
  | response waits _ _ => exact h.framed_past waits
  | back saved =>
    have kept := h.saved
    simp only [saved, List.mem_cons, forall_eq_or_imp] at kept
    exact ⟨⟨kept.1.1, kept.2⟩, rfl⟩
  | reset _ => exact ⟨framed_fresh _ _ _ _, rfl⟩

theorem settled_of_walk (framed : d.Framed) (clean : d.error = none)
    (h : d.walk = some (s, .ok r)) : s.Settled := by
  obtain ⟨v, place, arrives, -⟩ := walk_arrives
    (P := fun v => v.stack.Nested d.settings.locale d.workflow)
    (fun moves nested => moves.nested nested)
    (by simpa using framed.place) h
  cases arrives with
  | rests ends => exact ⟨⟨place, framed.saved⟩, .inr ⟨clean, ends.rests, ends.room⟩⟩
  | fails ends => exact ⟨⟨place, framed.saved⟩, .inl ⟨rfl, rfl⟩⟩

/-- The answer of a walk is no refusal: what ends a simulation is fatal. -/
theorem accepted_of_walk (clean : d.error = none) (h : d.walk = some (s, .ok r)) :
    r.refused = false := by
  obtain ⟨v, -, arrives, reply⟩ := walk_arrives (P := fun _ => True) (fun _ _ => trivial) trivial h
  cases arrives with
  | rests ends => simp [reply, Simulation.reply, Reply.refused, clean]
  | fails ends => simp [reply, Simulation.reply, Reply.refused, Problem.report, ends.fatal]

/-- A call that returns was refused and changed nothing, or it was accepted and walked on. -/
theorem Settled.perform_cases (h : s.Settled)
    (returns : s.perform c = .ok (some (s', .ok r))) :
    (r.refused = true ∧ s' = s) ∨
      (r.refused = false ∧ ∃ d, s.Departs c d ∧ d.walk = some (s', .ok r)) := by
  obtain ⟨o, outcome⟩ : ∃ o, o = some (s', Except.ok r) := ⟨_, rfl⟩
  rw [← outcome] at returns
  cases perform_performs returns with
  | refused mild =>
    cases outcome
    exact .inl ⟨by simp [Reply.refused, Problem.report, mild], rfl⟩
  | raised _ _ => cases outcome
  | departed departs =>
    have accepted := accepted_of_walk (h.departs departs).2 outcome
    exact .inr ⟨accepted, _, departs, outcome⟩

theorem Departs.answer (h : s.Departs (.answer a) d) :
    ∃ n line context, s.current = .node n ∧ d = s.past line context := by
  cases h with
  | values waits _ _ _ => exact ⟨_, _, _, waits, rfl⟩
  | response waits _ _ => exact ⟨_, _, _, waits, rfl⟩

theorem Settled.take_cases (h : s.Settled) (taken : s.take a = some (s', .ok r))
    (accepted : r.refused = false) : ∃ n line context, s.current = .node n ∧
      (s.past line context).walk = some (s', .ok r) := by
  rcases h.perform_cases (c := .answer a) (congrArg Except.ok taken) with
    ⟨refused, -⟩ | ⟨-, d, departs, walked⟩
  · cases refused.symm.trans accepted
  · obtain ⟨n, line, context, waits, rfl⟩ := departs.answer
    exact ⟨n, line, context, waits, walked⟩

/-- The latest saved state is the one that the latest accepted answer replaced. -/
theorem Settled.kept_of_take (h : s.Settled) (taken : s.take a = some (s', .ok r))
    (accepted : r.refused = false) : s'.settings = s.settings ∧ s'.workflow = s.workflow ∧
      s'.history = ⟨s.stack, s.context⟩ :: s.history := by
  obtain ⟨n, line, context, -, walked⟩ := h.take_cases taken accepted
  obtain ⟨settings, workflow, -, history⟩ := kept_of_walk walked
  exact ⟨settings, workflow, history⟩

theorem settled_of_perform (h : s.Settled) (returns : s.perform c = .ok (some (s', .ok r))) :
    s'.Settled := by
  rcases h.perform_cases returns with ⟨-, same⟩ | ⟨-, d, departs, walked⟩
  · exact same ▸ h
  · obtain ⟨framed, clean⟩ := h.departs departs
    exact settled_of_walk framed clean walked

theorem Reached.settled {settings : Settings} (h : Reached settings s) : s.Settled := by
  induction h with
  | created begun =>
    obtain ⟨nodes, log, -, walked⟩ := ofDocument_eq begun
    exact settled_of_walk (framed_fresh settings _ nodes log) rfl walked.symm
  | called _ returns ih => exact settled_of_perform ih returns

theorem Reached.settings_eq {settings : Settings} (h : Reached settings s) :
    s.settings = settings := by
  induction h with
  | created begun =>
    obtain ⟨nodes, log, -, walked⟩ := ofDocument_eq begun
    exact (kept_of_walk walked.symm).1
  | called reached returns ih =>
    rcases reached.settled.perform_cases returns with ⟨-, same⟩ | ⟨-, d, departs, walked⟩
    · exact same ▸ ih
    · have kept := (kept_of_walk walked).1
      exact (kept.trans departs.settings_eq).trans ih

theorem Settled.rests_of_status (h : s.Settled) (status : s.status ≠ .failed) :
    s.stack.Rests s.status := by
  rcases h.rests with ⟨failed, _⟩ | ⟨_, rests, _⟩
  · exact absurd failed status
  · exact rests

theorem Settled.not_running (h : s.Settled) : s.status ≠ .running := by
  rcases h.rests with ⟨failed, _⟩ | ⟨_, rests, _⟩
  · simp [failed]
  · exact rests.not_running.1

theorem Settled.exhausted (h : s.Settled) (spent : s.stack.top.node? = none)
    (alone : s.stack.below = []) : s.stack.top.index = s.workflow.length := by
  have frames := h.place.frames
  rw [alone] at frames
  cases frames with
  | root _ nodes =>
    have past := List.getElem?_eq_none_iff.mp spent
    exact nodes ▸ Nat.le_antisymm h.place.inside past

structure Sound (s : Simulation) : Prop where
  place : s.stack.Sound s.settings.locale s.workflow
  awaitsInput : s.status = .awaitingInput → ∃ id prompt fields ended,
    s.stack.top.node? = some (.interaction id prompt fields ended)
  awaitsCall : s.status = .awaitingCall → ∃ id name response ended,
    s.stack.top.node? = some (.call id name response ended)
  completed : s.status = .completed →
    s.stack.below = [] ∧ s.stack.top.index = s.workflow.length
  error : s.error.isSome ↔ s.status = .failed
  running : s.status ≠ .running
  saved : ∀ snapshot ∈ s.history, snapshot.stack.Sound s.settings.locale s.workflow ∧
    ((∃ id prompt fields ended,
        snapshot.stack.top.node? = some (.interaction id prompt fields ended)) ∨
      ∃ id name response ended,
        snapshot.stack.top.node? = some (.call id name response ended))

theorem reached_sound {settings : Settings} {s : Simulation} (h : Reached settings s) :
    s.Sound where
  place := h.settled.place.sound
  awaitsInput status := by
    have rests := h.settled.rests_of_status (by simp [status])
    rw [status] at rests
    cases rests with
    | awaits here awaits =>
      cases awaits
      exact ⟨_, _, _, _, here⟩
  awaitsCall status := by
    have rests := h.settled.rests_of_status (by simp [status])
    rw [status] at rests
    cases rests with
    | awaits here awaits =>
      cases awaits
      exact ⟨_, _, _, _, here⟩
  completed status := by
    have rests := h.settled.rests_of_status (by simp [status])
    rw [status] at rests
    cases rests with
    | awaits _ awaits => cases awaits
    | completed spent alone => exact ⟨alone, h.settled.exhausted spent alone⟩
  error := by
    rcases h.settled.rests with ⟨failed, error⟩ | ⟨clean, rests, _⟩
    · simp [failed, error]
    · simp [clean, rests.not_running.2]
  running := h.settled.not_running
  saved snapshot member := by
    obtain ⟨nested, n, status, here, awaits⟩ := h.settled.saved snapshot member
    refine ⟨nested.sound, ?_⟩
    rcases awaits.cases_on_status with ⟨-, id, prompt, fields, ended, rfl⟩ |
      ⟨-, id, name, response, ended, rfl⟩
    · exact .inl ⟨_, _, _, _, here⟩
    · exact .inr ⟨_, _, _, _, here⟩

end Simulation

namespace Sample

def noon : Instant := ⟨⟨2025, 1, 15⟩, 12, 0, 0, 0, some 0⟩

def node (type : String) (others : Entries Unit) : Data :=
  .ofEntries ((.text "type", .text type) :: others)

/-- A question that is asked again and again, in a decision. -/
def survey : Data :=
  let again := node "do_while" [(.text "expression", .bool true),
    (.text "actions", .ofList [node "user_interaction" []])]
  .ofList [node "decision" [(.text "expression", .bool true), (.text "if_block", .ofList [again])]]

/-- Loops in loops, none of which is ever done, with nothing in them. -/
def rounds : Data :=
  let idle := node "while_loop" [(.text "expression", .bool true)]
  .ofList [node "do_while" [(.text "expression", .bool true), (.text "actions", .ofList [idle])]]

def told (text : String) : Answer := .values (.ofEntries [(.text "reply", .text text)])

end Sample

open Sample in
/-- Three frames deep, with a saved state. -/
theorem Simulation.reached_sound_survey : ∃ s, Reached {} s ∧ s.stack.below.length = 2 ∧
    s.history.length = 1 ∧ s.Sound := by
  have led : ((begin? {} noon survey).bind fun s => s.feed [told "once"]).any (fun s =>
      s.stack.below.length == 2 && s.history.length == 1) = true := by decide +kernel
  obtain ⟨s, fed, deep⟩ := (Option.any_eq_true _ _).mp led
  obtain ⟨start, begun, fed⟩ := Option.bind_eq_some_iff.mp fed
  have reached : Reached {} s := reached_of_feed (reached_of_begin? begun) fed
  obtain ⟨below, saved⟩ := by simpa using deep
  exact ⟨s, reached, below, saved, reached_sound reached⟩

end Walkthrough
