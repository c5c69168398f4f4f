import Walkthrough.Service.Response
import Walkthrough.Service.Store
import Walkthrough.Service.Tool
import Walkthrough.Settings
import Walkthrough.Value.Iso

/-! The service behind the tools: settings, a folder of workflows and a store of simulations. A call
looks a simulation up by the name of its session, which marks it as used, works on it, and puts it
back. -/
namespace Walkthrough

structure Service where
  settings : Settings
  folder : Folder
  now : Instant
  store : Store Simulation

namespace Service

/-- The service after a call, and its response. -/
abbrev Answer := Service × Except ToolFailure Response

def startWith (naming : Nat → String) (settings : Settings) (folder : Folder) (now : Instant) :
    Service :=
  ⟨settings, folder, now, .emptyWith naming settings.maxSessions⟩

def start (settings : Settings) (folder : Folder) (now : Instant) : Service :=
  startWith Store.sessionName settings folder now

/-- What a simulation shows under a session's name, with a complaint. A prompt without a text
cannot be shown. -/
def describe (session : String) (s : Simulation) (complaint : Option Complaint) :
    Except ToolFailure Response :=
  let shown (prompt : Option String) : Response := .state {
    session := .text session
    status := s.status
    current := s.current
    prompt := prompt
    inputs := s.interaction?.map fun _ => s.inputs
    context := some s.context
    historyDepth := s.history.length
    complaint := complaint }
  match s.prompt with
  | none => .ok (shown none)
  | some (.ok prompt) => .ok (shown (some prompt))
  | some (.error e) => .error (.escape e)

/-- Describes a simulation with the error that it stands at. -/
def describeState (session : String) (s : Simulation) : Except ToolFailure Response :=
  describe session s (s.error.map .step)

/-- Keeps the outcome of an operation and describes it. -/
def keep (v : Service) (session : String) (o : Outcome) : Answer :=
  match o with
  | none => (v, .error .endless)
  | some (s, r) =>
    ({ v with store := v.store.put session s },
      match r with
      | .error e => .error (.escape e)
      | .ok reply => describe session s (reply.error.map .step))

/-- The session of a name. Only text names one, and a container cannot be looked up at all. -/
def session? (v : Service) (name : Data) :
    Except ToolFailure (Option (String × Simulation × Service)) :=
  match name with
  | .text s => .ok ((v.store.get s).map fun (sim, store) => (s, sim, { v with store := store }))
  | .atom _ => .ok none
  | _ => .error (.escape (.shape .wrongKind))

/-- Works on the session of a name; without one the response complains. -/
def onSession (v : Service) (name : Data) (missing : Complaint → Response)
    (work : Service → String → Simulation → Answer) : Answer :=
  match v.session? name with
  | .error e => (v, .error e)
  | .ok none =>
    match name.shown with
    | .ok name => (v, .ok (missing (.noSession name)))
    | .error f => (v, .error (.escape (.fault f)))
  | .ok (some (session, s, v)) => work v session s

/-- Works on a session for a tool that describes the state. -/
def onState (v : Service) (name : Data) (work : Service → String → Simulation → Answer) : Answer :=
  v.onSession name (fun c => .state { session := name, complaint := some c }) work

/-- The workflow that is asked for: a document, or the name of a file. -/
def workflowOf (v : Service) (workflow : Data) :
    Except ToolFailure (Except Complaint (List Node)) :=
  match workflow with
  | .text name =>
    match v.folder.load name with
    | .ok nodes => .ok (.ok nodes)
    | .error e => if e.message?.isSome then .ok (.error (.load e)) else .error (.load e)
  | document =>
    match readWorkflow document with
    | .ok nodes => .ok (.ok nodes)
    | .error (.flaw f) => .ok (.error (.document f))
    | .error e => .error (.document e)

def startSession (v : Service) (workflow : Data) : Answer :=
  match v.workflowOf workflow with
  | .error e => (v, .error e)
  | .ok (.error c) => (v, .ok (.state { session := .text "", complaint := some c }))
  | .ok (.ok nodes) =>
    match Simulation.create v.settings v.now nodes with
    | none => (v, .error .endless)
    | some (_, .error e) => (v, .error (.escape e))
    | some (s, .ok _) =>
      match v.store.create s with
      | none => (v, .error .noRoom)
      | some (session, store) => ({ v with store := store }, describeState session s)

/-- The payload that is meant: text holds it as JSON, in a fenced block or by itself. -/
def payloadOf (payload : Data) : Except Fault (Except PayloadError Data) :=
  match payload with
  | .text s => parsePayload (.text (jsonBlock s))
  | v => .ok (.ok v)

def submitResponse (v : Service) (name payload responseName : Data) : Answer :=
  v.onState name fun v session s =>
    match payloadOf payload with
    | .error f => (v, .error (.escape (.fault f)))
    | .ok (.error e) => (v, describe session s (some (.payload e)))
    | .ok (.ok payload) => v.keep session (s.respond responseName payload)

def fieldOptions (v : Service) (name : Data) : Answer :=
  let complain (c : Complaint) : Response := .fields { session := name, complaint := some c }
  v.onSession name complain fun v _ s =>
    match s.current with
    | .node (.interaction id ..) =>
      match s.fieldViews with
      | .ok views => (v, .ok (.fields ⟨name, some id, views, none⟩))
      | .error f => (v, .error (.escape (.fault f)))
    | _ => (v, .ok (complain .notAwaitingInput))

def mockPromptOf (v : Service) (session name response : Data) (nodes : List Node) :
    Except Escape Response := do
  let stored ← (variableName name response).mapError .shape
  let prompt ← mockPrompt nodes name response
  return .prompt {
    session := session
    name := stored
    prompt := prompt
    expressions := usages nodes stored
    payload := defaultPayload
    model := v.settings.mockModel
    complaint := none }

def describeCall (v : Service) (name : Data) : Answer :=
  let complain (c : Complaint) : Response := .prompt { session := name, complaint := some c }
  v.onSession name complain fun v _ s =>
    match s.current with
    | .node (.call _ call response _) =>
      (v, (v.mockPromptOf name call response s.workflow).mapError .escape)
    | _ => (v, .ok (complain .notAwaitingCall))

/-- Works in a session's context if one is named, and else in the context given. -/
def inContext (v : Service) (context name : Data) (work : Data → Except Fault Data) : Answer :=
  let result (context : Data) : Except ToolFailure Response :=
    match work context with
    | .ok value => .ok (.result ⟨value.isoDates, none⟩)
    | .error f => .error (.escape (.fault f))
  if name.isVoid then (v, result (context.orElse .emptyMap))
  else
    v.onSession name (fun c => .result ⟨.null, some c⟩) fun v _ s => (v, result s.context.toData)

/-- The work of a tool on arguments in the order of its parameters. -/
def perform (v : Service) : Tool → List Data → Answer
  | .start, [workflow] => v.startSession workflow
  | .status, [name] => v.onState name fun v session s => (v, describeState session s)
  | .submitInput, [name, values] =>
    v.onState name fun v session s => v.keep session (s.submit values)
  | .submitResponse, [name, payload, responseName] => v.submitResponse name payload responseName
  | .back, [name] => v.onState name fun v session s => v.keep session s.goBack
  | .reset, [name] => v.onState name fun v session s => v.keep session (s.reset v.now none)
  | .fieldOptions, [name] => v.fieldOptions name
  | .mockPrompt, [name] => v.describeCall name
  | .evaluate, [expression, context, name] =>
    v.inContext context name fun c => .ok (Expression.evaluate expression c)
  | .interpolate, [text, context, name] =>
    v.inContext context name fun c => Expression.interpolate text c
  | _, _ => (v, .error (.call (.binding .tooMany)))

/-- Calls a tool with arguments by name. -/
def call (v : Service) (tool : Tool) (arguments : Entries Unit) : Answer :=
  match receive tool.parameters [] arguments with
  | .error e => (v, .error (.call e))
  | .ok values => v.perform tool values

end Service

end Walkthrough
