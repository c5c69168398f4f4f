import Walkthrough.Expression.Template
import Walkthrough.Json.Reader
import Walkthrough.Workflow.Localized
import Walkthrough.Workflow.Node

/-! What a user interaction shows: its prompt, and for every field the options, labels and bounds
that hold in the current context. -/
namespace Walkthrough

/-- Bare texts and numbers become options whose label and value are their text. -/
def normalizeOption (v : Data) : Except Fault Data :=
  match v with
  | .text _ | .number _ => do
    let text ← v.string
    return .ofEntries [(.text "label", .text text), (.text "value", .text text)]
  | v => .ok v

def normalizeOptions (items : List Data) : Except Fault (List Data) := items.mapM normalizeOption

/-- An option whose label is its entry under a key; options without that entry stay as they are. -/
def relabel (key : String) (option : Data) : Data :=
  match option with
  | .map label entries =>
    match Entries.field? entries key with
    | some v => .map label (Entries.insert entries (.text "label") v)
    | none => option
  | v => v

/-- The key that a label expression names: what follows `$.`. -/
def labelKey? : Data → Option String
  | .text s =>
    match s.toList with
    | '$' :: '.' :: key => some (String.ofList key)
    | _ => none
  | _ => none

/-- The list that an options attribute stands for: its value, or the JSON array that it is. -/
def optionItems (options context : Data) : Except Fault (List Data) :=
  match Expression.evaluate options context, options with
  | .list _ items, _ => .ok items
  | _, .text s => do
    if s.toList.head? == some '[' then
      match ← Json.read s with
      | some (.list _ items) => return items
      | _ => return []
    else return []
  | _, _ => .ok []

namespace Field

def options (f : Field) (context : Data) : Except Fault (List Data) :=
  if f.attributes.options.isVoid then .ok []
  else do
    let items ← normalizeOptions (← optionItems f.attributes.options context)
    match labelKey? f.attributes.label with
    | some key => return items.map (relabel key)
    | none => return items

/-- Lower and upper bound. -/
structure Bounds where
  min : Data
  max : Data

/-- Only dates have bounds. -/
def bounds? (f : Field) (context : Data) : Option Bounds :=
  let bound (v : Data) : Data := if v.isVoid then .null else Expression.evaluate v context
  if f.type == "date" then some ⟨bound f.attributes.min, bound f.attributes.max⟩ else none

def isChoice (f : Field) : Bool := f.type == "multiple_choice" || f.type == "multiple_select"

/-- A field as it is shown. -/
structure View where
  name : String
  label : String
  type : String
  required : Bool
  options : Option (List Data)
  bounds : Option Bounds

def view (f : Field) (context : Data) : Except Fault View := do
  let options ←
    if f.isChoice || !f.attributes.options.isVoid then (f.options context).map some else .ok none
  return {
    name := f.name
    label := f.label
    type := f.type
    required := f.required
    options := options
    bounds := f.bounds? context }

end Field

/-- The replies already stored for the fields. -/
def storedInputs (fields : List Field) (replies : Entries Unit) : Entries Unit :=
  Entries.ofList (fields.filterMap fun f => (replies.field? f.name).map (Scalar.text f.name, ·))

/-- The prompt in a locale with its placeholders expanded, if it has a text. -/
def renderPrompt (prompt context : Data) (locale : Scalar) : Except Escape String := do
  let s ← promptText locale prompt
  let v ← (Expression.interpolateText s context).mapError .fault
  v.display.mapError .fault

end Walkthrough
