import Walkthrough.Proofs.Service.Request
import Walkthrough.Proofs.Service.Store

/-! What tools do in sessions. Every tool but the one that starts sessions looks its session up,
works on it alone, and perhaps puts it back. What it does depends on the settings, the time and the
session; the name of the session shows in the answer and matters for nothing else. -/
namespace Walkthrough

@[simp]
def Complaint.renamed (old new : String) : Complaint → Complaint
  | noSession name => noSession (if name = old then new else name)
  | c => c

/-- A response about a session that has got another name. -/
@[simp]
def Response.renamed (old new : String) : Response → Response
  | state r => state { r with
      session := renamedName r.session
      complaint := r.complaint.map (·.renamed old new) }
  | fields r => fields { r with
      session := renamedName r.session
      complaint := r.complaint.map (·.renamed old new) }
  | prompt r => prompt { r with
      session := renamedName r.session
      complaint := r.complaint.map (·.renamed old new) }
  | result r => result { r with complaint := r.complaint.map (·.renamed old new) }
where
  renamedName : Data → Data
    | .text s => .text (if s = old then new else s)
    | v => v

attribute [simp] Response.renamed.renamedName

def Service.timed (v : Service) (now : Instant) : Service := { v with now := now }

/-- What a tool does in a session of which it is given the name. -/
structure Task where
  missing : String → Response
  /-- The session that is put back, if one is. -/
  next : Simulation → Option Simulation
  answer : String → Simulation → Except ToolFailure Response

namespace Task

def keep (t : Task) (store : Store Simulation) (session : String) (s : Simulation) :
    Store Simulation :=
  match t.next s with
  | none => store
  | some s' => store.put session s'

def run (t : Task) (v : Service) (session : String) : Service.Answer :=
  match v.store.get session with
  | none => (v, .ok (t.missing session))
  | some (s, store) => ({ v with store := t.keep store session s }, t.answer session s)

/-- A session under another name is answered in the same way. -/
structure Uniform (t : Task) : Prop where
  missing : ∀ old new, t.missing new = (t.missing old).renamed old new
  answer : ∀ old new s, t.answer new s = (t.answer old s).map (·.renamed old new)

/-- What tools say that describe the state. -/
def describing (next : Simulation → Option Simulation)
    (answer : String → Simulation → Except ToolFailure Response) : Task :=
  ⟨fun name => .state { session := .text name, complaint := some (.noSession name) }, next, answer⟩

def looking (complaint : Simulation → Option Complaint) : Task :=
  describing (fun _ => none) fun name s => Service.describe name s (complaint s)

/-- An answer that cannot be given: a fault leaves the call. -/
def faulting (f : Fault) : Task :=
  describing (fun _ => none) fun _ _ => .error (.escape (.fault f))

def operating (operation : Simulation → Outcome) : Task :=
  describing (fun s => (operation s).map Prod.fst) fun name s =>
    match operation s with
    | none => .error .endless
    | some (_, .error e) => .error (.escape e)
    | some (s', .ok reply) => Service.describe name s' (reply.error.map .step)

def choosing : Task where
  missing name := .fields { session := .text name, complaint := some (.noSession name) }
  next _ := none
  answer name s :=
    match s.current with
    | .node (.interaction id ..) =>
      match s.fieldViews with
      | .ok views => .ok (.fields ⟨.text name, some id, views, none⟩)
      | .error f => .error (.escape (.fault f))
    | _ => .ok (.fields { session := .text name, complaint := some .notAwaitingInput })

def prompting (v : Service) : Task where
  missing name := .prompt { session := .text name, complaint := some (.noSession name) }
  next _ := none
  answer name s :=
    match s.current with
    | .node (.call _ call response _) =>
      (v.mockPromptOf (.text name) call response s.workflow).mapError .escape
    | _ => .ok (.prompt { session := .text name, complaint := some .notAwaitingCall })

def resolving (work : Data → Except Fault Data) : Task where
  missing name := .result ⟨.null, some (.noSession name)⟩
  next _ := none
  answer _ s :=
    match work s.context.toData with
    | .ok value => .ok (.result ⟨value.isoDates, none⟩)
    | .error f => .error (.escape (.fault f))

/-- The tools that are given the name of a session, with the values of their parameters. -/
def ofTool (v : Service) : Tool → List Data → Task
  | .submitInput, [_, values] => operating fun s => s.submit values
  | .submitResponse, [_, payload, responseName] =>
    match Service.payloadOf payload with
    | .error f => faulting f
    | .ok (.error e) => looking fun _ => some (.payload e)
    | .ok (.ok payload) => operating fun s => s.respond responseName payload
  | .back, _ => operating Simulation.goBack
  | .reset, _ => operating fun s => s.reset v.now none
  | .fieldOptions, _ => choosing
  | .mockPrompt, _ => prompting v
  | .evaluate, [expression, _, _] => resolving fun c => .ok (Expression.evaluate expression c)
  | .interpolate, [text, _, _] => resolving fun c => Expression.interpolate text c
  | _, _ => looking fun s => s.error.map .step

variable {t : Task} {v w : Service} {session : String} {tool : Tool} {values : List Data}

/-! ## Names in answers -/

theorem describe_renamed (old new : String) (s : Simulation) (complaint : Option Complaint) :
    Service.describe new s (complaint.map (·.renamed old new)) =
      (Service.describe old s complaint).map (·.renamed old new) := by
  simp only [Service.describe]
  split <;> simp [Except.map]

theorem map_step_renamed (old new : String) (error : Option StepError) :
    (error.map Complaint.step).map (·.renamed old new) = error.map .step := by
  cases error <;> rfl

theorem uniform_describing {next : Simulation → Option Simulation}
    {answer : String → Simulation → Except ToolFailure Response}
    (same : ∀ old new s, answer new s = (answer old s).map (·.renamed old new)) :
    (describing next answer).Uniform := by
  refine ⟨fun old new => ?_, same⟩
  simp [describing]

theorem uniform_looking {complaint : Simulation → Option Complaint}
    (same : ∀ old new s, (complaint s).map (·.renamed old new) = complaint s) :
    (looking complaint).Uniform := by
  refine uniform_describing fun old new s => ?_
  rw [← describe_renamed, same]

theorem uniform_operating (operation : Simulation → Outcome) :
    (operating operation).Uniform := by
  refine uniform_describing fun old new s => ?_
  split
  · rfl
  · rfl
  · rw [← describe_renamed, map_step_renamed]

theorem uniform_choosing : choosing.Uniform := by
  refine ⟨fun old new => ?_, fun old new s => ?_⟩
  · simp [choosing]
  · simp only [choosing]
    split
    · split <;> simp [Except.map]
    · simp [Except.map]

theorem mockPromptOf_renamed (v : Service) (old new : String) (call response : Data)
    (nodes : List Node) : v.mockPromptOf (.text new) call response nodes =
      (v.mockPromptOf (.text old) call response nodes).map (·.renamed old new) := by
  simp only [Service.mockPromptOf]
  cases variableName call response with
  | error e => rfl
  | ok stored =>
    cases mockPrompt nodes call response with
    | error e => rfl
    | ok prompt =>
      simp [Except.map, Except.mapError, bind, Except.bind, pure, Except.pure]

theorem uniform_prompting (v : Service) : (prompting v).Uniform := by
  refine ⟨fun old new => ?_, fun old new s => ?_⟩
  · simp [prompting]
  · simp only [prompting]
    split
    · rename_i call response _ _
      rw [mockPromptOf_renamed v old new]
      cases v.mockPromptOf (.text old) call response s.workflow <;> rfl
    · simp [Except.map]

theorem uniform_resolving (work : Data → Except Fault Data) : (resolving work).Uniform := by
  refine ⟨fun old new => ?_, fun old new s => ?_⟩
  · simp [resolving]
  · simp only [resolving]
    split <;> rfl

theorem uniform_ofTool (v : Service) (tool : Tool) (values : List Data) :
    (ofTool v tool values).Uniform := by
  fun_cases ofTool v tool values with
  | case1 | case4 | case5 | case6 => exact uniform_operating _
  | case2 => exact uniform_describing fun _ _ _ => rfl
  | case3 => exact uniform_looking fun _ _ _ => rfl
  | case7 => exact uniform_choosing
  | case8 => exact uniform_prompting v
  | case9 | case10 => exact uniform_resolving _
  | case11 => exact uniform_looking fun old new s => map_step_renamed old new s.error

/-- What a tool does depends on nothing but the settings and the time. -/
theorem ofTool_timed (settings : v.settings = w.settings) (now : Instant) (tool : Tool)
    (values : List Data) : ofTool (v.timed now) tool values = ofTool (w.timed now) tool values := by
  have prompts : prompting (v.timed now) = prompting (w.timed now) := by
    simp only [prompting, Service.mockPromptOf, Service.timed, settings]
  have times : (v.timed now).now = (w.timed now).now := rfl
  cases tool <;> simp only [ofTool, prompts, times]

/-! ## Tools as tasks -/

theorem onSession_eq_run {missing : Complaint → Response}
    {work : Service → String → Simulation → Service.Answer}
    (absent : missing (.noSession session) = t.missing session)
    (works : ∀ store s, work { v with store := store } session s =
      ({ v with store := t.keep store session s }, t.answer session s)) :
    v.onSession (.text session) missing work = t.run v session := by
  simp only [Service.onSession, Service.session?, run]
  cases v.store.get session with
  | none => exact congrArg (fun r => (v, Except.ok r)) absent
  | some found => exact works found.2 found.1

theorem keep_operating (v : Service) (session : String) (operation : Simulation → Outcome)
    (s : Simulation) : v.keep session (operation s) =
      ({ v with store := (operating operation).keep v.store session s },
        (operating operation).answer session s) := by
  simp only [Service.keep, operating, describing, keep]
  cases operation s with
  | none => rfl
  | some r =>
    obtain ⟨s', _ | reply⟩ := r <;> rfl

/-- Without a name no session is looked at but the context that is given. -/
theorem inContext_onSession (v : Service) (name context : Data) (work : Data → Except Fault Data) :
    (name.isVoid = true ∧ (v.inContext context name work).1 = v) ∨
      ∃ missing works, v.inContext context name work = v.onSession name missing works ∧
        ∀ session, name = .text session →
          missing (.noSession session) = (resolving work).missing session ∧
          ∀ store s, works { v with store := store } session s =
            ({ v with store := (resolving work).keep store session s },
              (resolving work).answer session s) := by
  by_cases void : name.isVoid = true
  · refine .inl ⟨void, ?_⟩
    rw [Service.inContext, if_pos void]
  · refine .inr ⟨_, _, (if_neg void : v.inContext context name work = _), ?_⟩
    rintro session rfl
    exact ⟨rfl, fun _ _ => rfl⟩

/-- A tool that is given the name of a session looks that session up and does its work there, unless
it needs no session and the name is void. -/
theorem perform_eq_onSession (other : tool ≠ .start)
    (size : values.length = tool.parameters.length) (name : Data) (v : Service) :
    (name.isVoid = true ∧ (v.perform tool (withSession name tool.parameters values)).1 = v) ∨
      ∃ missing work, v.perform tool (withSession name tool.parameters values) =
          v.onSession name missing work ∧
        ∀ session, name = .text session →
          missing (.noSession session) = (ofTool v tool values).missing session ∧
          ∀ store s, work { v with store := store } session s =
            ({ v with store := (ofTool v tool values).keep store session s },
              (ofTool v tool values).answer session s) := by
  cases tool with
  | start => exact absurd rfl other
  | status =>
    obtain ⟨x, rfl⟩ := List.length_eq_one_iff.mp size
    have shape : withSession name Tool.status.parameters [x] = [name] := rfl
    refine .inr ⟨_, _, by rw [shape, Service.perform, Service.onState], ?_⟩
    rintro session rfl
    exact ⟨rfl, fun _ _ => rfl⟩
  | submitInput =>
    obtain ⟨x, values, rfl⟩ := List.length_eq_two.mp size
    have shape : withSession name Tool.submitInput.parameters [x, values] = [name, values] := rfl
    refine .inr ⟨_, _, by rw [shape, Service.perform, Service.onState], ?_⟩
    rintro session rfl
    exact ⟨rfl, fun _ s => keep_operating _ session (fun s => s.submit values) s⟩
  | submitResponse =>
    obtain ⟨x, payload, responseName, rfl⟩ := List.length_eq_three.mp size
    have shape : withSession name Tool.submitResponse.parameters [x, payload, responseName] =
        [name, payload, responseName] := rfl
    refine .inr ⟨_, _, by rw [shape, Service.perform, Service.submitResponse, Service.onState], ?_⟩
    rintro session rfl
    simp only [ofTool]
    cases Service.payloadOf payload with
    | error f => exact ⟨rfl, fun _ _ => rfl⟩
    | ok meant =>
      cases meant with
      | error e => exact ⟨rfl, fun _ _ => rfl⟩
      | ok payload =>
        exact ⟨rfl, fun _ s => keep_operating _ session (fun s => s.respond responseName payload) s⟩
  | back =>
    obtain ⟨x, rfl⟩ := List.length_eq_one_iff.mp size
    have shape : withSession name Tool.back.parameters [x] = [name] := rfl
    refine .inr ⟨_, _, by rw [shape, Service.perform, Service.onState], ?_⟩
    rintro session rfl
    exact ⟨rfl, fun _ s => keep_operating _ session Simulation.goBack s⟩
  | reset =>
    obtain ⟨x, rfl⟩ := List.length_eq_one_iff.mp size
    have shape : withSession name Tool.reset.parameters [x] = [name] := rfl
    refine .inr ⟨_, _, by rw [shape, Service.perform, Service.onState], ?_⟩
    rintro session rfl
    exact ⟨rfl, fun _ s => keep_operating _ session (fun s => s.reset v.now none) s⟩
  | fieldOptions =>
    obtain ⟨x, rfl⟩ := List.length_eq_one_iff.mp size
    have shape : withSession name Tool.fieldOptions.parameters [x] = [name] := rfl
    refine .inr ⟨_, _, by rw [shape, Service.perform, Service.fieldOptions], ?_⟩
    rintro session rfl
    refine ⟨rfl, fun _ s => ?_⟩
    simp only [ofTool, choosing]
    cases s.current with
    | nothing | finished => rfl
    | node n =>
      cases n with
      | interaction => cases s.fieldViews <;> rfl
      | _ => rfl
  | mockPrompt =>
    obtain ⟨x, rfl⟩ := List.length_eq_one_iff.mp size
    have shape : withSession name Tool.mockPrompt.parameters [x] = [name] := rfl
    refine .inr ⟨_, _, by rw [shape, Service.perform, Service.describeCall], ?_⟩
    rintro session rfl
    refine ⟨rfl, fun _ s => ?_⟩
    simp only [ofTool, prompting]
    cases s.current with
    | nothing | finished => rfl
    | node n => cases n <;> rfl
  | evaluate =>
    obtain ⟨subject, context, x, rfl⟩ := List.length_eq_three.mp size
    have shape : withSession name Tool.evaluate.parameters [subject, context, x] =
        [subject, context, name] := rfl
    rw [shape, Service.perform]
    exact inContext_onSession v name context _
  | interpolate =>
    obtain ⟨subject, context, x, rfl⟩ := List.length_eq_three.mp size
    have shape : withSession name Tool.interpolate.parameters [subject, context, x] =
        [subject, context, name] := rfl
    rw [shape, Service.perform]
    exact inContext_onSession v name context _

theorem perform_eq_run (other : tool ≠ .start) (size : values.length = tool.parameters.length)
    (named : session ≠ "") (v : Service) :
    v.perform tool (withSession (.text session) tool.parameters values) =
      (ofTool v tool values).run v session := by
  rcases perform_eq_onSession other size (.text session) v with
    ⟨void, -⟩ | ⟨missing, work, same, fits⟩
  · exact absurd (by simpa [Value.isVoid] using void) named
  · obtain ⟨absent, works⟩ := fits session rfl
    rw [same]
    exact onSession_eq_run absent works

theorem perform_unnamed (other : tool ≠ .start) (size : values.length = tool.parameters.length)
    {name : Data} (unnamed : ∀ session, name = .text session → v.store.find? session = none) :
    (v.perform tool (withSession name tool.parameters values)).1 = v := by
  rcases perform_eq_onSession other size name v with ⟨-, same⟩ | ⟨missing, work, same, -⟩
  · exact same
  · rw [same]
    cases name with
    | atom k =>
      have absent : v.session? (.atom k) = .ok none := by
        cases k with
        | text session => simp [Service.session?, Store.get, unnamed session rfl]
        | _ => rfl
      simp only [Service.onSession, absent]
      split <;> rfl
    | _ => rfl

/-! ## What tasks do to the sessions -/

variable {old new : String}

theorem run_touched (t : Task) (v : Service) (session : String) : ∃ store,
    (t.run v session).1 = { v with store := store } ∧ v.store.Touched session store := by
  simp only [run]
  split
  · exact ⟨v.store, rfl, .not⟩
  · rename_i s store found
    simp only [keep]
    split
    · exact ⟨store, rfl, .used found⟩
    · rename_i s' _
      exact ⟨_, rfl, .put found s'⟩

theorem find?_run (t : Task) (v : Service) (session : String) :
    (t.run v session).1.store.find? session =
      (v.store.find? session).map fun s => (t.next s).getD s := by
  simp only [run]
  split
  · rename_i missed
    simp [Store.get_eq_none.mp missed]
  · rename_i s store found
    have there := (Store.get_eq_some.mp found).1
    have same := Store.find?_get found session
    rw [there, Option.map_some]
    simp only [keep]
    split
    · rename_i unchanged
      rw [same, there, unchanged, Option.getD_none]
    · rename_i s' changed
      rw [Store.find?_put, if_pos rfl, same, there, changed, Option.map_some, Option.getD_some]

/-- A task in a session answers as it does in the same session of another name, and does the
same. -/
theorem run_renamed (uniform : t.Uniform) (same : v.store.find? old = w.store.find? new) :
    (t.run w new).2 = (t.run v old).2.map (·.renamed old new) ∧
      (t.run w new).1.store.find? new = (t.run v old).1.store.find? old := by
  refine ⟨?_, by rw [find?_run, find?_run, same]⟩
  simp only [run, Store.get, ← same]
  cases v.store.find? old with
  | none => exact congrArg Except.ok (uniform.missing old new)
  | some s => exact uniform.answer old new s

end Task

end Walkthrough
