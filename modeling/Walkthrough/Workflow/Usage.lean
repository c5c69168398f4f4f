import Walkthrough.Text.Parts
import Walkthrough.Workflow.Node

/-! Where a stored response is read: the option and label expressions that mention it. -/
namespace Walkthrough

/-- The expressions of a field that may read responses. -/
def Field.expressions (f : Field) : List String :=
  [f.attributes.options, f.attributes.label].filterMap fun v =>
    match v with
    | .text s => some s
    | _ => none

def Node.fieldExpressions : Node → List String
  | .interaction _ _ fields _ => fields.flatMap Field.expressions
  | _ => []

/-- Keeps the first of equal texts. -/
def distinct (seen : List String) : List String → List String
  | [] => []
  | s :: rest => if seen.contains s then distinct seen rest else s :: distinct (s :: seen) rest

/-- Expressions that mention the response of a name, each once, in document order. -/
def usages (nodes : List Node) (name : String) : List String :=
  let needle := "api_responses.".toList ++ name.toList
  distinct [] (((Node.walkAll nodes).flatMap Node.fieldExpressions).filter fun s =>
    Text.occursIn needle s.toList)

end Walkthrough
