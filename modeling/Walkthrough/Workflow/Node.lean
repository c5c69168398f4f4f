import Walkthrough.Text.Blank
import Walkthrough.Text.Lowercase
import Walkthrough.Value.Conversion

/-! Workflows: ordered lists of nodes. Decisions and loops own lists of nodes themselves, so a
workflow is a tree. User interactions and calls are where a walk stops for an answer; a node of any
other type is kept with its definition. -/
namespace Walkthrough

/-- The attributes of a field; options, label and bounds are expressions. What is not given is
null, other attributes are kept as they are. -/
structure FieldAttributes where
  optional : Bool
  options : Data
  label : Data
  min : Data
  max : Data
  extra : Entries Unit

structure Field where
  name : String
  type : String
  attributes : FieldAttributes

def Field.required (f : Field) : Bool := !f.attributes.optional

/-- The label shown for a field: its name with spaces for underscores. -/
def Field.label (f : Field) : String :=
  String.ofList (f.name.toList.map fun c => if c == '_' then ' ' else c)

def fieldTypes : List String := ["text", "numeric", "date", "multiple_choice", "multiple_select"]

inductive Node where
  | interaction (id : String) (prompt : Data) (fields : List Field) (ended : Bool)
  | call (id : String) (name response : Data) (ended : Bool)
  | decision (id : String) (expression : Data) (yes no : List Node)
  | whileLoop (id : String) (expression : Data) (actions : List Node)
  | doWhile (id : String) (expression : Data) (actions : List Node)
  | unknown (id type : String) (definition : Entries Unit)

namespace Node

instance : Inhabited Node := ⟨.unknown "" "" []⟩

def id : Node → String
  | interaction id .. => id
  | call id .. => id
  | decision id .. => id
  | whileLoop id .. => id
  | doWhile id .. => id
  | unknown id .. => id

def type : Node → String
  | interaction .. => "user_interaction"
  | call .. => "api_call"
  | decision .. => "decision"
  | whileLoop .. => "while_loop"
  | doWhile .. => "do_while"
  | unknown _ type _ => type

/-- The node lists that a node owns. -/
def blocks : Node → List (List Node)
  | decision _ _ yes no => [yes, no]
  | whileLoop _ _ actions => [actions]
  | doWhile _ _ actions => [actions]
  | _ => []

mutual

/-- A node and all nodes below it, in document order. -/
def walk : Node → List Node
  | decision id e yes no => decision id e yes no :: (walkAll yes ++ walkAll no)
  | whileLoop id e actions => whileLoop id e actions :: walkAll actions
  | doWhile id e actions => doWhile id e actions :: walkAll actions
  | interaction id prompt fields ended => [interaction id prompt fields ended]
  | call id name response ended => [call id name response ended]
  | unknown id type definition => [unknown id type definition]

def walkAll : List Node → List Node
  | [] => []
  | n :: rest => walk n ++ walkAll rest

end

/-- The node of an id anywhere in a workflow. -/
def find? (nodes : List Node) (id : String) : Option Node :=
  (walkAll nodes).find? fun n => n.id == id

end Node

/-- Runs of white space become one underscore each. -/
def underscored (inBlank : Bool) : List Char → List Char
  | [] => []
  | c :: cs =>
    if Text.isBlank c then (if inBlank then [] else ['_']) ++ underscored true cs
    else c :: underscored false cs

/-- The name under which a call's response is stored: the response variable, else the name of the
call, without white space and in lower case. A name that is not text has no such form. -/
def variableName (name response : Data) : Except ShapeError String :=
  match (response.orElse name).orElse (.text "unknown_api") with
  | .text s => .ok (Text.lower (String.ofList (underscored false s.toList)))
  | _ => .error .wrongKind

end Walkthrough
