import Walkthrough.Service.Parameter

/-! The tools and their parameters. -/
namespace Walkthrough

inductive Tool where
  | start
  | status
  | submitInput
  | submitResponse
  | back
  | reset
  | fieldOptions
  | mockPrompt
  | evaluate
  | interpolate
  deriving DecidableEq, Repr

namespace Tool

def name : Tool → String
  | start => "simulator_start"
  | status => "simulator_status"
  | submitInput => "simulator_submit_input"
  | submitResponse => "simulator_submit_api_response"
  | back => "simulator_back"
  | reset => "simulator_reset"
  | fieldOptions => "simulator_field_options"
  | mockPrompt => "simulator_mock_prompt"
  | evaluate => "expression_evaluate"
  | interpolate => "expression_interpolate"

def all : List Tool := [start, status, submitInput, submitResponse, back, reset, fieldOptions,
  mockPrompt, evaluate, interpolate]

def named? (name : String) : Option Tool := all.find? fun t => t.name == name

/-- A map with text for keys. -/
def textMap : Annotation := .container .map [.text, .other]

def optional (a : Annotation) : Annotation := .union [a, .other]

def sessionParameter : Parameter := ⟨"session_id", .text, none⟩

/-- The parameters of the tools that work on an expression. -/
def expressionParameters (subject : String) : List Parameter :=
  [⟨subject, .text, none⟩, ⟨"context", optional textMap, some .null⟩,
    ⟨"session_id", optional .text, some .null⟩]

def parameters : Tool → List Parameter
  | start => [⟨"workflow", .union [.container .list [textMap], textMap, .text], none⟩]
  | submitInput => [sessionParameter, ⟨"values", optional textMap, some .null⟩]
  | submitResponse =>
    [sessionParameter, ⟨"payload", .other, none⟩, ⟨"response_var", optional .text, some .null⟩]
  | evaluate => expressionParameters "expression"
  | interpolate => expressionParameters "text"
  | _ => [sessionParameter]

end Tool

end Walkthrough
