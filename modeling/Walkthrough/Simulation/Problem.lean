import Walkthrough.Value.Conversion

/-! What can go wrong in a simulation. A problem is reported to the caller with a code and a
message; the fatal ones end the walk. Errors of other origin can be reported in the same form. -/
namespace Walkthrough

/-- The states of a simulation. -/
inductive Status where
  | running
  | awaitingInput
  | awaitingCall
  | completed
  | failed
  deriving DecidableEq, Repr

def Status.text : Status → String
  | running => "running"
  | awaitingInput => "awaiting_input"
  | awaitingCall => "awaiting_call"
  | completed => "completed"
  | failed => "failed"

/-- Kinds of errors that have a code of their own; all others share one. -/
inductive ErrorKind where
  | simulator
  | interpreter
  | validation
  | invalidPayload
  | noHistory
  | invalidState
  | unreachableNode
  | loopLimit
  | expression
  | notFound
  | invalidWorkflow
  | other (name : String)
  deriving DecidableEq, Repr

namespace ErrorKind

def name : ErrorKind → String
  | simulator => "SimulatorError"
  | interpreter => "InterpreterError"
  | validation => "ValidationError"
  | invalidPayload => "InvalidPayloadError"
  | noHistory => "NoHistoryError"
  | invalidState => "InvalidStateError"
  | unreachableNode => "UnreachableNodeError"
  | loopLimit => "LoopLimitExceededError"
  | expression => "ExpressionError"
  | notFound => "WorkflowNotFoundError"
  | invalidWorkflow => "WorkflowValidationError"
  | other name => name

def code : ErrorKind → String
  | simulator => "SIMULATOR_ERROR"
  | interpreter => "INTERPRETER_ERROR"
  | validation => "VALIDATION_ERROR"
  | invalidPayload => "INVALID_PAYLOAD"
  | noHistory => "NO_HISTORY"
  | invalidState => "INVALID_STATE"
  | unreachableNode => "UNREACHABLE_NODE"
  | loopLimit => "LOOP_LIMIT_EXCEEDED"
  | expression => "EXPRESSION_ERROR"
  | notFound => "NOT_FOUND"
  | invalidWorkflow => "INVALID_WORKFLOW"
  | other _ => "OPERATION_FAILED"

def fatal : ErrorKind → Bool
  | unreachableNode | loopLimit => true
  | _ => false

def coded : List ErrorKind := [simulator, interpreter, validation, invalidPayload, noHistory,
  invalidState, unreachableNode, loopLimit, expression, notFound, invalidWorkflow]

def ofName (name : String) : ErrorKind := (coded.find? fun k => k.name == name).getD (other name)

end ErrorKind

/-- Why an operation is refused or a walk ends. -/
inductive Problem where
  | missingFields (names : List String)
  | malformedPayload (name : String)
  | noHistory
  | alreadyFailed
  | notAwaiting (wanted : String) (status : Status)
  | unreachable (type id : String)
  | tooManyRepeats (owner limit : String)
  | tooManySteps (limit : String)
  deriving DecidableEq, Repr

namespace Problem

def kind : Problem → ErrorKind
  | missingFields _ => .validation
  | malformedPayload _ => .invalidPayload
  | noHistory => .noHistory
  | alreadyFailed | notAwaiting .. => .invalidState
  | unreachable .. => .unreachableNode
  | tooManyRepeats .. | tooManySteps _ => .loopLimit

def message : Problem → String
  | missingFields names => "Missing required fields: " ++ ", ".intercalate names
  | malformedPayload name => s!"Response payload for '{name}' is not valid structured data"
  | noHistory => "No previous step to go back to"
  | alreadyFailed => "Simulation has failed; reset or go back first"
  | notAwaiting wanted status => s!"Not awaiting a {wanted} step (status: {status.text})"
  | unreachable type id => s!"Unrecognized node type '{type}' at node {id}"
  | tooManyRepeats owner limit => s!"Loop {owner} repeated more than {limit} times"
  | tooManySteps limit => s!"Auto-advance exceeded {limit} transitions"

def missing : Problem → List String
  | missingFields names => names
  | _ => []

end Problem

/-- A problem as it is reported, with the step it belongs to. -/
structure StepError where
  kind : ErrorKind
  message : String
  stepId : Option String
  missing : List String
  deriving DecidableEq, Repr

def Problem.report (p : Problem) (stepId : Option String) : StepError :=
  ⟨p.kind, p.message, stepId, p.missing⟩

end Walkthrough
