import Walkthrough.Json.Reader
import Walkthrough.Text.Blank
import Walkthrough.Value.Basic

/-! Parameters of tools. Callers may write a container as JSON text; a parameter whose annotation
admits containers reads such text before the tool sees it. Any other argument passes as it is. -/
namespace Walkthrough

inductive Container where
  | list
  | map
  | tuple
  deriving DecidableEq, Repr

def Container.name : Container → String
  | list => "list"
  | map => "dict"
  | tuple => "tuple"

/-- What a parameter is declared to hold. -/
inductive Annotation where
  | text
  | other
  | container (kind : Container) (arguments : List Annotation)
  | mapping (arguments : List Annotation)
  | sequence (arguments : List Annotation)
  | union (members : List Annotation)

namespace Annotation

mutual

/-- The containers that an annotation admits, in the order in which it names them. -/
def accepted : Annotation → List Container
  | text => []
  | other => []
  | container kind _ => [kind]
  | mapping _ => [.map]
  | sequence _ => [.list]
  | union members => acceptedAny members

def acceptedAny : List Annotation → List Container
  | [] => []
  | a :: rest => accepted a ++ acceptedAny rest

end

def arguments : Annotation → List Annotation
  | text => []
  | other => []
  | container _ arguments => arguments
  | mapping arguments => arguments
  | sequence arguments => arguments
  | union members => members

def isText : Annotation → Bool
  | text => true
  | _ => false

/-- Text is declared, or is among the direct arguments. -/
def mentionsText (a : Annotation) : Bool := a.isText || a.arguments.any isText

end Annotation

/-- An argument as a tool receives it. -/
inductive Argument where
  | given (v : Data)
  | read (kind : Container) (v : Data)

def Argument.value : Argument → Data
  | given v => v
  | read _ v => v

/-- The line noted about an argument that was read from text. -/
def Argument.notice (name : String) : Argument → String
  | given _ => ""
  | read kind _ =>
    s!"[JSONMiddleware] Converted {name} from JSON string to {kind.name}\n"

inductive ParameterError where
  | plainText (name : String) (accepted : List Container)
  | notJson (name : String)
  | wrongContainer (name : String) (accepted : List Container) (found : Container)
  | fault (f : Fault)
  deriving DecidableEq, Repr

def containerNames (kinds : List Container) : String :=
  " or ".intercalate (kinds.map Container.name)

/-- The wording, up to the detail of a reading error. -/
def ParameterError.message : ParameterError → String
  | plainText name kinds => s!"Parameter '{name}' expected {containerNames kinds} but got string"
  | notJson name => s!"Invalid JSON in parameter '{name}': "
  | wrongContainer name kinds found =>
    s!"Parameter '{name}' must be a {containerNames kinds}, got {found.name} from JSON"
  | fault _ => ""

/-- The container that a value read from text becomes; a list becomes a tuple where one may. -/
def containerOf (kinds : List Container) : Data → Option Container
  | .list .. => some (if kinds.contains .tuple then .tuple else .list)
  | .map .. => some .map
  | .atom _ => none

def opensContainer (s : String) : Bool :=
  match s.toList with
  | c :: _ => c == '[' || c == '\x7b'
  | [] => false

/-- Reads an argument for a parameter of a given annotation. -/
def Annotation.convert (a : Annotation) (name : String) (v : Data) :
    Except ParameterError Argument :=
  match v with
  | .text s =>
    let body := Text.strip s
    if a.accepted.isEmpty then .ok (.given v)
    else if opensContainer body then
      match Json.read body with
      | .error f => .error (.fault f)
      | .ok none => .error (.notJson name)
      | .ok (some parsed) =>
        match containerOf a.accepted parsed with
        | none => .error (.notJson name)
        | some kind =>
          if a.accepted.contains kind then .ok (.read kind parsed)
          else .error (.wrongContainer name a.accepted kind)
    else if a.mentionsText then .ok (.given v)
    else .error (.plainText name a.accepted)
  | v => .ok (.given v)

/-- A parameter without a fallback must be given. -/
structure Parameter where
  name : String
  annotation : Annotation
  fallback : Option Data

inductive BindingError where
  | tooMany
  | twice (name : String)
  | unknown
  | absent (name : String)
  deriving DecidableEq, Repr

/-- One value per parameter: by position first, then by name, else the fallback. -/
def bindParameters (named : Entries Unit) :
    List Parameter → List Data → Except BindingError (List Data)
  | [], [] => .ok []
  | [], _ :: _ => .error .tooMany
  | p :: rest, v :: more =>
    if (named.field? p.name).isSome then .error (.twice p.name)
    else (bindParameters named rest more).map (v :: ·)
  | p :: rest, [] =>
    match (named.field? p.name).orElse fun _ => p.fallback with
    | none => .error (.absent p.name)
    | some v => (bindParameters named rest []).map (v :: ·)

/-- Every name given is the name of a parameter. -/
def namesKnown (parameters : List Parameter) (named : Entries Unit) : Bool :=
  named.all fun entry => parameters.any fun p => Scalar.text p.name == entry.1

inductive CallError where
  | binding (e : BindingError)
  | parameter (e : ParameterError)
  deriving DecidableEq, Repr

/-- The arguments of a call, in the order of the parameters. -/
def receive (parameters : List Parameter) (positional : List Data) (named : Entries Unit) :
    Except CallError (List Data) := do
  if !namesKnown parameters named then .error (.binding .unknown)
  let bound ← (bindParameters named parameters positional).mapError .binding
  (parameters.zip bound).mapM fun (p, v) =>
    ((p.annotation.convert p.name v).map Argument.value).mapError .parameter

end Walkthrough
