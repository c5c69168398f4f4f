import Walkthrough.Value.Listing
import Walkthrough.Workflow.Node

/-! Workflows read from documents. A document is a list of nodes, or a map that holds one under
`workflow`. A node without an id takes its place in the document for one. Ids are unique in a
workflow that is accepted. -/
namespace Walkthrough

/-- Where a list of nodes stands. -/
inductive Place where
  | top
  | block (owner key : String)
  deriving DecidableEq, Repr

/-- The id of the node at a position of a list, if it has none of its own. -/
def Place.childId (place : Place) (i : Nat) : String :=
  match place with
  | top => s!"step_{i}"
  | block owner key => s!"{owner}.{key}.{i}"

/-- What is wrong with a document. -/
inductive Flaw where
  | notList
  | duplicateId (id : String)
  | nodeNotMap (place : String)
  | blockNotList (key owner : String)
  | fieldWithoutName (owner : String)
  | unsupportedField (type owner : String)
  deriving DecidableEq, Repr

def Flaw.message : Flaw → String
  | notList => "Workflow must be a list of nodes"
  | duplicateId id => s!"Duplicate node id: {id}"
  | nodeNotMap place => s!"Workflow node at {place} must be a mapping"
  | blockNotList key owner => s!"'{key}' of node {owner} must be a list"
  | fieldWithoutName owner => s!"Field of node {owner} must be a mapping with a name"
  | unsupportedField type owner => s!"Unsupported field type '{type}' in node {owner}"

/-- A document is refused for a flaw; it cannot be read at all for the form of a part, or for a value
that should be shown as text and cannot. -/
inductive DocumentError where
  | flaw (f : Flaw)
  | shape (e : ShapeError)
  | fault (f : Fault)
  deriving DecidableEq, Repr

/-- The text that a value is shown as. -/
def shownText (v : Data) : Except DocumentError String := v.shown.mapError .fault

def entry (entries : Entries Unit) (name : String) : Data := (entries.field? name).getD .null

/-- The entry under a name, or empty text if it is void. -/
def textEntry (entries : Entries Unit) (name : String) : Data := (entry entries name).orElse (.text "")

def FieldAttributes.ofData (v : Data) : Except ShapeError FieldAttributes := do
  let all ← v.toEntries
  let named := ["optional", "options", "label_expression", "min", "max"]
  return {
    optional := !(entry all "optional").isVoid
    options := entry all "options"
    label := entry all "label_expression"
    min := entry all "min"
    max := entry all "max"
    extra := named.foldl (fun es name => es.erase (.text name)) all }

def isFieldType : Data → Bool
  | .text s => fieldTypes.contains s
  | _ => false

def Field.ofData (owner : String) (v : Data) : Except DocumentError Field :=
  match v with
  | .map _ entries =>
    let name := entry entries "name"
    if name.isVoid then .error (.flaw (.fieldWithoutName owner))
    else
      let type := (Entries.field? entries "type").getD (.text "text")
      if isFieldType type then do
        let name ← shownText name
        let type ← shownText type
        match FieldAttributes.ofData (entry entries "attributes") with
        | .ok attributes => .ok ⟨name, type, attributes⟩
        | .error e => .error (.shape e)
      else do .error (.flaw (.unsupportedField (← shownText type) owner))
  | _ => .error (.flaw (.fieldWithoutName owner))

/-- The fields of an interaction. -/
def fieldsOf (owner : String) (v : Data) : Except DocumentError (List Field) :=
  if v.isVoid then .ok []
  else
    match v.parts? with
    | .ok items => items.mapM (Field.ofData owner)
    | .error e => .error (.shape e)

/-- The kinds of node that a type names. -/
def nodeType (entries : Entries Unit) : Data := (entries.field? "type").getD (.text "unknown")

mutual

def readNode (v : Data) (defaultId : String) : Except DocumentError Node :=
  match v with
  | .map _ entries => do
    let id ← shownText ((entry entries "id").orElse (.text defaultId))
    let ended := !(entry entries "ended").isVoid
    let expression := entry entries "expression"
    match nodeType entries with
    | .text "user_interaction" =>
      let fields ← fieldsOf id (entry entries "fields")
      return .interaction id (entry entries "prompt") fields ended
    | .text "api_call" =>
      let response := (entry entries "response_var").orElse (textEntry entries "response")
      return .call id (textEntry entries "api_name") response ended
    | .text "decision" =>
      let yes ← readBlock entries "if_block" id
      let no ← readBlock entries "else_block" id
      return .decision id expression yes no
    | .text "while_loop" => return .whileLoop id expression (← readBlock entries "actions" id)
    | .text "do_while" => return .doWhile id expression (← readBlock entries "actions" id)
    | type =>
      return .unknown id (← shownText type) (Entries.erase (Entries.erase entries (.text "id")) (.text "type"))
  | _ => .error (.flaw (.nodeNotMap defaultId))

/-- The nodes under a key of a node. -/
def readBlock (entries : List (Scalar × Data)) (key owner : String) :
    Except DocumentError (List Node) :=
  match entries with
  | [] => .ok []
  | (k, v) :: rest =>
    if k == .text key then
      match v with
      | .list _ items => readNodes items (.block owner key) 0
      | v => if v.isVoid then .ok [] else .error (.flaw (.blockNotList key owner))
    else readBlock rest key owner

def readNodes (items : List Data) (place : Place) (i : Nat) : Except DocumentError (List Node) :=
  match items with
  | [] => .ok []
  | v :: rest => do
    let n ← readNode v (place.childId i)
    return n :: (← readNodes rest place (i + 1))

end

/-- The first text that stands in a list twice. -/
def firstDuplicate? (seen : List String) : List String → Option String
  | [] => none
  | s :: rest => if seen.contains s then some s else firstDuplicate? (s :: seen) rest

def checkIds (nodes : List Node) : Except DocumentError (List Node) :=
  match firstDuplicate? [] ((Node.walkAll nodes).map Node.id) with
  | some id => .error (.flaw (.duplicateId id))
  | none => .ok nodes

/-- The node list of a document, which may be wrapped. -/
def unwrapped (document : Data) : Data :=
  match document with
  | .map _ entries => (Entries.field? entries "workflow").getD document
  | v => v

def readWorkflow (document : Data) : Except DocumentError (List Node) :=
  match unwrapped document with
  | .list _ items => do checkIds (← readNodes items .top 0)
  | _ => .error (.flaw .notList)

end Walkthrough
