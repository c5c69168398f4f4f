import Walkthrough.Proofs.Program.Meaning
import Walkthrough.Proofs.Simulation.Place

/-! Frames are what is left of a structured program. A transition never changes what that rest
comes to, an answer takes it on, so a simulation stands wherever the program does that has been
given the same answers. -/
namespace Walkthrough

def Frame.program (locale : Scalar) (f : Frame) : Program :=
  let rest := Node.programAll locale (f.nodes.drop f.index)
  match f.kind with
  | .loop _ e => .seq rest (.loop e (Node.programAll locale f.nodes))
  | _ => rest

/-- What is left to do in a frame and in those below it, behind the nodes at which they stand. -/
def Frame.remaining (locale : Scalar) (f : Frame) : List Frame → Program
  | [] => f.program locale
  | parent :: rest => .seq (f.program locale) (parent.advance.remaining locale rest)

def Stack.remaining (locale : Scalar) (s : Stack) : Program := s.top.remaining locale s.below

namespace Frame

variable {env : Surroundings} {locale : Scalar} {f : Frame} {n : Node} {below : List Frame}
  {c : Context} {answers : List Answer} {g : Finish}

theorem program_of_here (here : f.node? = some n)
    (h : ((n.program locale).seq (f.advance.program locale)).Runs c answers g) :
    (f.program locale).Runs c answers g := by
  obtain ⟨nodes, index, kind⟩ := f
  have split := drop_of_here here
  cases kind with
  | loop owner e =>
    simp only [program, split, Node.programAll]
    exact h.assoc
  | root | branch =>
    simp only [program, split, Node.programAll]
    exact h

theorem remaining_of_here (here : f.node? = some n)
    (h : ((n.program locale).seq (f.advance.remaining locale below)).Runs c answers g) :
    (f.remaining locale below).Runs c answers g := by
  cases below with
  | nil => exact program_of_here here h
  | cons parent rest => exact h.assoc.replace (program_of_here here)

theorem program_of_spent (spent : f.node? = none) (released : f.Released env) :
    (f.program env.settings.locale).Runs env.context answers (.ended env.context answers) := by
  obtain ⟨nodes, index, kind⟩ := f
  have none := drop_of_spent spent
  cases kind with
  | loop owner e =>
    simp only [program, none, Node.programAll]
    exact .seq .skip (.leaves (released owner e rfl))
  | root | branch =>
    simp only [program, none, Node.programAll]
    exact .skip

end Frame

namespace Node

variable {env : Surroundings} {n : Node} {answers : List Answer} {g : Finish}

theorem Opens.runs {block : List Node} {kind : FrameKind} (opened : n.Opens env block kind)
    (h : (Frame.program env.settings.locale ⟨block, 0, kind⟩).Runs env.context answers g) :
    (n.program env.settings.locale).Runs env.context answers g := by
  cases opened with
  | branch taken decided _ =>
    refine .choose taken decided ?_
    cases taken <;> exact h
  | whileLoop entered => exact .repeats entered h
  | doWhile => exact h

theorem Passed.runs (passed : n.Passed env) :
    (n.program env.settings.locale).Runs env.context answers (.ended env.context answers) := by
  cases passed with
  | branch taken decided empty =>
    refine .choose taken decided ?_
    cases taken
    · simp only [Bool.false_eq_true, ↓reduceIte] at empty ⊢
      exact empty ▸ .skip
    · simp only [↓reduceIte] at empty ⊢
      exact empty ▸ .skip
  | whileLoop skipped => exact .leaves skipped

theorem Awaits.program_eq {status : Status} (awaits : n.Awaits status) (locale : Scalar) :
    n.program locale = .ask n := by
  cases awaits <;> rfl

end Node

/-- A transition leaves alone what the rest of the program comes to. -/
theorem Walk.Moves.runs {env : Surroundings} {w w' : Walk} {answers : List Answer} {g : Finish}
    (moves : w.Moves env w')
    (h : (w'.stack.remaining env.settings.locale).Runs env.context answers g) :
    (w.stack.remaining env.settings.locale).Runs env.context answers g := by
  cases moves with
  | opens here opened => exact Frame.remaining_of_here here (h.replace opened.runs)
  | passes here passed => exact Frame.remaining_of_here here (.seq passed.runs h)
  | @again owner e log spent kind holds _ =>
    obtain ⟨⟨⟨nodes, index, kind'⟩, passes⟩, below, log⟩ := w
    cases kind
    have none := Frame.drop_of_spent spent
    have pass : ∀ {f}, (Frame.program env.settings.locale ⟨nodes, 0, .loop owner e⟩).Runs
        env.context answers f →
        (Frame.program env.settings.locale ⟨nodes, index, .loop owner e⟩).Runs
          env.context answers f := by
      intro f first
      simp only [Frame.program, none, Node.programAll]
      exact .seq .skip (.repeats holds first)
    cases below with
    | nil => exact pass h
    | cons parent rest => exact h.replace pass
  | @leaves parent rest log spent released below =>
    simp only [Walk.stack, below, List.map_cons]
    exact .seq (Frame.program_of_spent spent released) h

namespace Simulation

/-- Where a simulation stands, as the finish of a program that has taken all answers given. -/
inductive Shows (s : Simulation) : Finish → Prop where
  | awaits {n : Node} (waits : s.current = .node n) : Shows s (.awaits n s.context)
  | completed (status : s.status = .completed) : Shows s (.ended s.context [])
  | unreachable {id type : String} {definition : Entries Unit} (status : s.status = .failed)
      (here : s.stack.top.node? = some (.unknown id type definition))
      (error : s.error = some ((Problem.unreachable type id).report (some id))) :
      Shows s (.aborted (.unknown id type definition) s.context [])

def remaining (s : Simulation) : Program := s.stack.remaining s.settings.locale

/-- Neither the transitions of a walk nor the passes of a loop are counted. -/
def Unlimited (settings : Settings) : Prop :=
  settings.maxAutoSteps.count = none ∧ settings.maxLoopIterations.count = none

variable {s s' d start : Simulation} {a : Answer} {answers : List Answer} {f g : Finish} {r : Reply}

theorem Shows.unique (left : s.Shows f) (right : s.Shows g) : f = g := by
  cases left with
  | awaits waits =>
    cases right with
    | awaits waits' =>
      cases waits.symm.trans waits'
      rfl
    | completed status | unreachable status =>
      rcases (current_eq_node waits).1 with other | other <;> cases status.symm.trans other
  | completed status =>
    cases right with
    | awaits waits =>
      rcases (current_eq_node waits).1 with other | other <;> cases status.symm.trans other
    | completed _ => rfl
    | unreachable other _ _ => cases status.symm.trans other
  | unreachable status here _ =>
    cases right with
    | awaits waits =>
      rcases (current_eq_node waits).1 with other | other <;> cases status.symm.trans other
    | completed other => cases status.symm.trans other
    | unreachable _ here' _ =>
      cases here.symm.trans here'
      rfl

theorem current_of_awaits {n : Node} (here : s.stack.top.node? = some n)
    (awaits : n.Awaits s.status) : s.current = .node n := by
  rcases awaits.cases_on_status with ⟨status, -⟩ | ⟨status, -⟩ <;> simp [current, status, here]

/-- The place that a walk comes to leaves as much to do as the one it came from. -/
theorem runs_of_walk (walked : d.walk = some (s, .ok r))
    (h : s.remaining.Runs s.context answers f) : d.remaining.Runs d.context answers f := by
  obtain ⟨v, kept, arrives, -⟩ := walk_arrives
    (P := fun v => ∀ {f}, (v.stack.remaining d.settings.locale).Runs d.context answers f →
      d.remaining.Runs d.context answers f)
    (fun moves rest _ h => rest (moves.runs h)) (fun h => by simpa [remaining] using h) walked
  cases arrives <;> exact kept h

/-- Where a walk without ceilings stops, the rest of the program does with no answer to come. -/
theorem shows_of_walk (unlimited : Unlimited d.settings) (walked : d.walk = some (s, .ok r)) :
    ∃ f, s.Shows f ∧ s.remaining.Runs s.context [] f := by
  obtain ⟨steps, passes⟩ := unlimited
  obtain ⟨v, -, arrives, -⟩ := walk_arrives (P := fun _ => True) (fun _ _ => trivial) trivial walked
  cases arrives with
  | rests ends =>
    cases ends with
    | stopped stop _ =>
      cases (Walk.stops_of_step stop).2.2 with
      | awaits here awaits =>
        refine ⟨_, .awaits (current_of_awaits here awaits), ?_⟩
        refine Frame.remaining_of_here here (.broken ?_ (Finish.broken_awaits _ _))
        exact awaits.program_eq d.settings.locale ▸ .awaits
      | completed spent released alone =>
        refine ⟨_, .completed rfl, ?_⟩
        simp only [remaining, Stack.remaining, Walk.stack, alone, List.map_nil, Frame.remaining]
        exact Frame.program_of_spent spent released
  | fails ends =>
    cases ends with
    | stopped stop _ =>
      cases (Walk.stops_of_step stop).2.2 with
      | unreachable here =>
        refine ⟨_, .unreachable rfl here ?_, ?_⟩
        · simp only [Stack.blamed, Walk.stack, here, Node.id]
        · exact Frame.remaining_of_here here (.broken .aborts (Finish.broken_aborted _ _ _))
      | repeated _ _ _ refused => simp [Ceiling.allows, surroundings, passes] at refused
    | cut ceiling => cases steps.symm.trans ceiling

theorem Settled.runs_of_take (settled : s.Settled) (taken : s.take a = some (s', .ok r))
    (accepted : r.refused = false) (h : s'.remaining.Runs s'.context answers f) :
    s.remaining.Runs s.context (a :: answers) f := by
  have answered {n : Node} {context : Context} {line : String} (waits : s.current = .node n)
      (added : s.context.withAnswer n a = some context)
      (walked : (s.past line context).walk = some (s', .ok r)) :
      s.remaining.Runs s.context (a :: answers) f := by
    obtain ⟨here, awaits, -, -⟩ := settled.awaits waits
    refine Frame.remaining_of_here here (.seq ?_ (runs_of_walk walked h))
    exact awaits.program_eq s.settings.locale ▸ .answered added
  rcases settled.perform_cases (c := .answer a) (congrArg Except.ok taken) with
    ⟨refused, -⟩ | ⟨-, d, departs, walked⟩
  · cases refused.symm.trans accepted
  · cases departs with
    | values waits form _ _ =>
      exact answered waits (by simp [Context.withAnswer, form, Except.toOption]) walked
    | response waits named _ =>
      exact answered waits (by simp [Context.withAnswer, named, Except.toOption]) walked

theorem Settled.shows_of_feed (settled : s.Settled) (unlimited : Unlimited s.settings)
    (shown : ∃ f, s.Shows f ∧ s.remaining.Runs s.context [] f) (fed : s.feed answers = some s') :
    ∃ f, s'.Shows f ∧ s.remaining.Runs s.context answers f := by
  induction answers generalizing s with
  | nil =>
    cases fed
    exact shown
  | cons a rest ih =>
    obtain ⟨u, accepted, fed⟩ := Option.bind_eq_some_iff.mp fed
    obtain ⟨r, taken, accepted⟩ := accept?_eq_some accepted
    obtain ⟨n, line, context, -, walked⟩ := settled.take_cases taken accepted
    have settings : u.settings = s.settings := (settled.kept_of_take taken accepted).1
    have next : u.Settled := settled_of_perform (c := .answer a) settled (congrArg Except.ok taken)
    -- the rest of the program is read backwards: from the end, through each walk, to the answer
    have stands := shows_of_walk (d := s.past line context) unlimited walked
    obtain ⟨f, shows, runs⟩ := ih next (settings ▸ unlimited) stands fed
    exact ⟨f, shows, settled.runs_of_take taken accepted runs⟩

/-- Without ceilings a simulation that has been given answers stands where the structured program
of its workflow does on these answers: about to take one more at a node, at the end, or aborted. -/
theorem shows_iff_runs {settings : Settings} {now : Instant} {document : Data} {nodes : List Node}
    (unlimited : Unlimited settings) (read : Denotes document nodes)
    (begun : begin? settings now document = some start) (fed : start.feed answers = some s)
    (f : Finish) :
    s.Shows f ↔ (Node.programAll settings.locale nodes).Runs (.empty now) answers f := by
  obtain ⟨r, opened⟩ := begin?_eq_some begun
  obtain ⟨log, same⟩ := ofDocument_of_denotes settings now read
  have walked : (fresh settings now nodes log).walk = some (start, .ok r) :=
    Except.ok.inj (same.symm.trans opened)
  have settled : start.Settled := (reached_of_begin? begun).settled
  have kept : start.settings = settings := (kept_of_walk walked).1
  obtain ⟨g, shows, runs⟩ := settled.shows_of_feed (kept ▸ unlimited)
    (shows_of_walk unlimited walked) fed
  have whole : (Node.programAll settings.locale nodes).Runs (.empty now) answers g :=
    runs_of_walk walked runs
  -- both sides have one finish at most, and they have this one in common
  constructor
  · intro shown
    exact shown.unique shows ▸ whole
  · intro other
    exact other.deterministic whole ▸ shows

open Sample in
/-- After one answer the survey is about to ask again. -/
theorem shows_iff_runs_survey : ∃ nodes n c,
    Denotes survey nodes ∧
      (Node.programAll (.text "en-US") nodes).Runs (.empty noon) [told "once"] (.awaits n c) ∧
      n.id = "step_0.if_block.0.actions.0" := by
  have led : ((begin? {} noon survey).bind fun s => s.feed [told "once"]).any (fun s =>
      s.status == .awaitingInput &&
        s.stack.top.node?.any fun n => n.id == "step_0.if_block.0.actions.0") = true := by
    decide +kernel
  obtain ⟨s, fed, stands⟩ := (Option.any_eq_true _ _).mp led
  obtain ⟨start, begun, fed⟩ := Option.bind_eq_some_iff.mp fed
  obtain ⟨status, n, here, id⟩ : s.status = .awaitingInput ∧ ∃ n, s.stack.top.node? = some n ∧
      n.id = "step_0.if_block.0.actions.0" := by
    simpa [Option.any_eq_true] using stands
  obtain ⟨r, opened⟩ := begin?_eq_some begun
  obtain ⟨nodes, -, read, -⟩ := ofDocument_eq opened
  have waits : s.current = .node n := by simp [current, status, here]
  exact ⟨nodes, n, s.context, read,
    (shows_iff_runs ⟨rfl, rfl⟩ read begun fed _).mp (.awaits waits), id⟩

end Simulation

end Walkthrough
