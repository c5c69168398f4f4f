import Walkthrough.Json.Reader
import Walkthrough.Json.Writer
import Walkthrough.Text.Blank
import Walkthrough.Text.Parts
import Walkthrough.Value.Coercion
import Walkthrough.Value.Listing
import Walkthrough.Workflow.Usage

/-! Mock responses for calls: the prompt that asks a chat backend for one, the JSON block in what it
answers, and the payload read from that block. -/
namespace Walkthrough

/-- The payload offered before one has been generated. -/
def defaultPayload : Data :=
  .ofEntries [(.text "status", .text "success"), (.text "data", .text "Mock Data"),
    (.text "found", .bool true),
    (.text "products", .ofList [.text "Speaker A", .text "Speaker B"])]

/-- The JSON list of some texts, in ASCII. -/
def jsonList (texts : List String) : String :=
  "[" ++ ",".intercalate (texts.map (Json.writeText .ascii)) ++ "]"

/-- The prompt for a call. It lists the expressions that read the response, if there are any. -/
def mockPrompt (nodes : List Node) (name response : Data) : Except Escape String := do
  let variableName ← (variableName name response).mapError .shape
  match usages nodes variableName with
  | [] =>
    let shown ← (name.orElse (.text "unknown")).shown.mapError .fault
    return "create a realistic json response for an API named \"" ++ shown ++
      "\" (variable: api_responses." ++ variableName ++ ")"
  | expressions =>
    return "Give a json example as the value of 'api_responses." ++ variableName ++
      "' to match value of these freemarker expressions: " ++ jsonList expressions ++
      ", return the json value only, do not include the key api_responses." ++ variableName

/-- A backend that answers every message with itself. -/
def echo (message : String) : String :=
  "This is a mock response to: \"" ++ message ++
    "\". The actual API integration will replace this with real agent responses."

def echoModels (models : List String) : List String :=
  if models.isEmpty then ["gpt-4.1-mini"] else models

def fence : List Char := "```".toList

/-- The inside of the first fenced block with a given opening, up to the next fence. -/
def blockAfter? (opening cs : List Char) : Option (List Char) :=
  (Text.cutAt? opening cs).map fun (_, behind) =>
    Text.trim (match Text.cutAt? fence behind with
      | some (inside, _) => inside
      | none => behind)

/-- The first block marked as JSON, else the first fenced block, else the text as it is. -/
def jsonBlock (text : String) : String :=
  let cs := text.toList
  match blockAfter? (fence ++ "json".toList) cs, blockAfter? fence cs with
  | some block, _ => String.ofList block
  | none, some block => String.ofList block
  | none, none => text

/-- An answer of a chat backend to a prompt for a model. -/
structure Generation where
  prompt : String
  model : Data
  /-- The payload's text in the answer. -/
  text : String

/-- Asks a backend, which maps message and model to an answer, for the payload of a call. A model
that is not given stands for the fallback. The message is logged as JSON, so the model must have a
JSON text. -/
def generate (backend : String → Data → String) (fallback : Data) (nodes : List Node)
    (name response model : Data) : Except Escape Generation := do
  let model := model.orElse fallback
  let prompt ← mockPrompt nodes name response
  let _ ← Json.write .ascii model
  return ⟨prompt, model, jsonBlock (backend prompt model)⟩

/-- Why a payload is refused. -/
inductive PayloadError where
  | notJson
  | notStructured
  deriving DecidableEq, Repr

/-- The wording, up to the detail of a reading error. -/
def PayloadError.message : PayloadError → String
  | notJson => "Invalid JSON in mock response: "
  | notStructured => "Mock response is not valid structured data"

/-- The payload that a text holds. A text whose reading fails is not even refused. -/
def parsePayload (text : Data) : Except Fault (Except PayloadError Data) :=
  match text with
  | .text s => do
    match ← Json.read s with
    | none => return .error .notJson
    | some v => return if v.isStructured then .ok v else .error .notStructured
  | _ => .ok (.error .notJson)

end Walkthrough
