import Walkthrough.Service.Parameter
import Walkthrough.Simulation.Basic
import Walkthrough.Workflow.Loading
import Walkthrough.Workflow.MockPayload

/-! What tools answer. A response says what it can and carries a complaint when something was wrong;
only failures leave a tool without a response. -/
namespace Walkthrough

/-- What a response reports to have been wrong. -/
inductive Complaint where
  | step (e : StepError)
  | noSession (name : String)
  | load (e : LoadError)
  | document (f : Flaw)
  | payload (e : PayloadError)
  | notAwaitingInput
  | notAwaitingCall
  deriving DecidableEq, Repr

namespace Complaint

def code : Complaint → String
  | step e => e.kind.code
  | noSession _ => "NOT_FOUND"
  | load (.notFound ..) => "NOT_FOUND"
  | load _ => "INVALID_INPUT"
  | document _ => "INVALID_INPUT"
  | payload _ => ErrorKind.invalidPayload.code
  | notAwaitingInput => "INVALID_STATE"
  | notAwaitingCall => "INVALID_STATE"

/-- The wording, up to the detail of a reading error. -/
def message : Complaint → String
  | step e => e.message
  | noSession name => "Simulation session not found: " ++ name
  | load e => e.message?.getD ""
  | document f => f.message
  | payload e => e.message
  | notAwaitingInput => "Simulation is not awaiting user input"
  | notAwaitingCall => "Simulation is not awaiting an API response"

end Complaint

/-- Where a simulation stands. -/
structure StateResponse where
  session : Data
  status : Status := .failed
  current : Current := .nothing
  prompt : Option String := none
  /-- Stored replies for the fields of the interaction that waits, if one does. -/
  inputs : Option (Entries Unit) := none
  context : Option Context := none
  historyDepth : Nat := 0
  complaint : Option Complaint

structure FieldsResponse where
  session : Data
  stepId : Option String := none
  fields : List Field.View := []
  complaint : Option Complaint

/-- How to generate a payload for the call that waits. -/
structure PromptResponse where
  session : Data
  name : String := ""
  prompt : String := ""
  expressions : List String := []
  payload : Data := .emptyMap
  model : Data := .text ""
  complaint : Option Complaint

structure ResultResponse where
  result : Data
  complaint : Option Complaint

inductive Response where
  | state (r : StateResponse)
  | fields (r : FieldsResponse)
  | prompt (r : PromptResponse)
  | result (r : ResultResponse)

/-- Why a tool does not answer: it was called wrongly, an error left the simulation or the reading
of a document, the store has no room, or the walk would go on for ever. -/
inductive ToolFailure where
  | call (e : CallError)
  | escape (e : Escape)
  | load (e : LoadError)
  | document (e : DocumentError)
  | noRoom
  | endless

end Walkthrough
