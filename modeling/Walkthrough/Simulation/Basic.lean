import Walkthrough.Simulation.Walk
import Walkthrough.Workflow.Document
import Walkthrough.Workflow.Form
import Walkthrough.Workflow.Usage

/-! A simulation that a caller drives. It halts at interactions and calls; submitting an answer
saves the state it replaces and walks on, going back restores the latest saved state exactly. A
refused operation leaves everything as it was. -/
namespace Walkthrough

structure Snapshot where
  stack : Stack
  context : Context

structure Simulation where
  settings : Settings
  workflow : List Node
  stack : Stack
  context : Context
  /-- Saved states, the latest first. -/
  history : List Snapshot
  status : Status
  error : Option StepError
  log : List String

/-- What a simulation stands at. -/
inductive Current where
  | nothing
  | node (n : Node)
  | finished (context : Context)

/-- The answer to an operation. -/
structure Reply where
  success : Bool
  status : Status
  current : Current
  error : Option StepError

/-- The state after an operation and its answer, or the error that left it. There is no outcome
when the walk would go on for ever. -/
abbrev Outcome := Option (Simulation × Except Escape Reply)

namespace Simulation

/-- The node that waits for an answer, or the end that has been reached. -/
def current (s : Simulation) : Current :=
  match s.status with
  | .awaitingInput | .awaitingCall =>
    match s.stack.top.node? with
    | some n => .node n
    | none => .nothing
  | .completed => .finished s.context
  | _ => .nothing

def note (s : Simulation) (line : String) : Simulation :=
  { s with log := logged s.settings.debugLogLimit s.log line }

def reply (s : Simulation) : Reply := ⟨s.status != .failed, s.status, s.current, s.error⟩

/-- Takes over the place a walk has reached and how it stopped there. -/
def settle (s : Simulation) (w : Walk) (stop : Stop) : Simulation × Except Escape Reply :=
  let s := { s with stack := w.stack, log := w.log }
  match stop with
  | .halted status =>
    let s := { s with status := status }
    (s, .ok s.reply)
  | .failed p =>
    let s := { s with status := .failed, error := some (p.report w.stack.blamed) }.note
      ("[Error] " ++ p.message)
    (s, .ok s.reply)
  | .escaped status e => ({ s with status := status }, .error e)

/-- Walks on from the current place. -/
def walk (s : Simulation) : Outcome :=
  let s := { s with status := .running }
  ((Walk.start s.stack s.log).run ⟨s.settings, s.context⟩).map fun (w, stop) => s.settle w stop

/-- Begins anew, with another workflow if one is given. -/
def reset (s : Simulation) (now : Instant) (workflow : Option (List Node)) : Outcome :=
  let nodes := workflow.getD s.workflow
  walk ({ s with
    workflow := nodes
    stack := .ofWorkflow nodes
    context := .empty now
    history := []
    status := .running
    error := none }.note s!"[Reset] {nodes.length} top-level nodes")

/-- Begins anew with the workflow of a document; null keeps the current one. A document that is
refused changes nothing. -/
def resetTo (s : Simulation) (now : Instant) (document : Data) : Except DocumentError Outcome :=
  match document with
  | .null => .ok (s.reset now none)
  | document => (readWorkflow document).map fun nodes => s.reset now (some nodes)

def create (settings : Settings) (now : Instant) (nodes : List Node) : Outcome :=
  reset ⟨settings, nodes, .ofWorkflow nodes, .empty now, [], .running, none, []⟩ now none

/-- A simulation of the workflow of a document; null is the empty workflow. -/
def ofDocument (settings : Settings) (now : Instant) (document : Data) :
    Except DocumentError Outcome :=
  match document with
  | .null => .ok (create settings now [])
  | document => (readWorkflow document).map (create settings now)

/-- The answer to an operation that is refused. -/
def reject (s : Simulation) (p : Problem) : Outcome :=
  let stepId := match s.current with
    | .node n => some n.id
    | _ => none
  some (s, .ok ⟨false, s.status, s.current, some (p.report stepId)⟩)

/-- Saves the current state, then walks on with a new context behind the node that waited. -/
def commit (s : Simulation) (context : Context) : Outcome :=
  walk { s with
    history := ⟨s.stack, s.context⟩ :: s.history
    context := context
    stack := s.stack.advance }

/-- A required answer is missing when it is absent, null or empty text. -/
def isBlankAnswer : Option Data → Bool
  | none | some .null => true
  | some (.text s) => s.isEmpty
  | some _ => false

def missingFields (fields : List Field) (values : Entries Unit) : List String :=
  (fields.filter fun f => f.required && isBlankAnswer (values.field? f.name)).map Field.name

/-- The names of the values, if all of them are text. -/
def valueNames? (values : Entries Unit) : Option (List String) :=
  values.mapM fun entry =>
    match entry.1 with
    | .text s => some s
    | _ => none

def refusal (s : Simulation) (wanted : String) : Problem :=
  if s.status == .failed then .alreadyFailed else .notAwaiting wanted s.status

/-- Answers the interaction that waits. -/
def submit (s : Simulation) (values : Data) : Outcome :=
  match s.current with
  | .node (.interaction id _ fields _) =>
    match values.toEntries with
    | .error e => some (s, .error (.shape e))
    | .ok entries =>
      match missingFields fields entries with
      | [] =>
        match valueNames? entries with
        | none => some (s, .error (.shape .wrongKind))
        | some names =>
          let joined := ", ".intercalate names
          let listed := if joined.isEmpty then "-" else joined
          (s.note s!"[Input] {id} | Fields: {listed}").commit (s.context.withReplies entries)
      | missing => s.reject (.missingFields missing)
  | _ => s.reject (s.refusal "UserInteraction")

/-- The name under which a response is stored: the one given, or else the call's own. -/
def responseName (given name response : Data) : Except Escape String :=
  match given.orElse (.text "") with
  | .text t =>
    let stripped := Text.strip t
    if stripped.isEmpty then (variableName name response).mapError .shape else .ok stripped
  | _ => .error .notText

/-- Answers the call that waits. -/
def respond (s : Simulation) (given payload : Data) : Outcome :=
  match s.current with
  | .node (.call id name response _) =>
    match responseName given name response with
    | .error e => some (s, .error e)
    | .ok stored =>
      if payload.isStructured then
        (s.note s!"[Api] {id} | Stored as api_responses.{stored}").commit
          (s.context.withResponse stored payload)
      else s.reject (.malformedPayload stored)
  | _ => s.reject (s.refusal "ApiCall")

/-- Restores the state that the latest submit replaced. -/
def goBack (s : Simulation) : Outcome :=
  match s.history with
  | [] => s.reject .noHistory
  | snapshot :: rest =>
    walk ({ s with
      stack := snapshot.stack
      context := snapshot.context
      history := rest
      status := .running
      error := none }.note s!"[Back] History depth: {rest.length}")

/-- The interaction that waits. -/
def interaction? (s : Simulation) : Option (Data × List Field) :=
  match s.current with
  | .node (.interaction _ prompt fields _) => some (prompt, fields)
  | _ => none

def fieldViews (s : Simulation) : Except Fault (List Field.View) :=
  match s.interaction? with
  | some (_, fields) => fields.mapM fun f => f.view s.context.toData
  | none => .ok []

/-- The prompt of the interaction that waits, if there is one; it may have no text. -/
def prompt (s : Simulation) : Option (Except Escape String) :=
  s.interaction?.map fun (prompt, _) => renderPrompt prompt s.context.toData s.settings.locale

def inputs (s : Simulation) : Entries Unit :=
  match s.interaction? with
  | some (_, fields) => storedInputs fields s.context.replies
  | none => []

end Simulation

end Walkthrough
