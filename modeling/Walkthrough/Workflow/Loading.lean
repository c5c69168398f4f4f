import Walkthrough.Markup.Reader
import Walkthrough.Workflow.Document
import Walkthrough.Workflow.Folder
import Walkthrough.Workflow.Unfolding

/-! Workflows from texts and files. A file is asked for by its path, which has one of the known
suffixes, or by its name in the folder of workflows, to which the suffixes are added in turn. -/
namespace Walkthrough

inductive TextError where
  | markup (e : Markup.MarkupError)
  | document (e : DocumentError)
  deriving DecidableEq, Repr

/-- The wording of an invalid document, up to the detail of a reading error. The other errors have
none. -/
def TextError.message? : TextError → Option String
  | markup .malformed => some "Invalid YAML syntax: "
  | document (.flaw f) => some f.message
  | _ => none

/-- The workflow that a text holds. -/
def workflowOfText (text : String) : Except TextError (List Node) :=
  match Markup.read text with
  | .error e => .error (.markup e)
  | .ok d => (readWorkflow d.toData).mapError .document

/-- Why no workflow is loaded. A path that is found may still be that of a folder. -/
inductive LoadError where
  | notFound (name : String) (searched : List String)
  | invalid (path : String) (e : TextError)
  | isFolder
  | tooLong
  deriving DecidableEq, Repr

def LoadError.message? : LoadError → Option String
  | notFound name searched =>
    some ("Workflow '" ++ name ++ "' not found. Searched:\n  - " ++ "\n  - ".intercalate searched)
  | invalid path e => e.message?.map fun m => "Error loading workflow from " ++ path ++ ": " ++ m
  | _ => none

def workflowSuffixes : List String := [".yaml", ".yml", ".json"]

namespace Folder

/-- The paths at which a name is looked for. -/
def places (f : Folder) (name : String) : List Path :=
  workflowSuffixes.map fun suffix => f.place.under (.ofText (name ++ suffix))

/-- The workflow at a path, unless the path leads to nothing. -/
def workflowAt? (f : Folder) (p : Path) : Option (Except LoadError (List Node)) :=
  match f.target p with
  | .nothing => none
  | .file text => some ((workflowOfText text).mapError (.invalid p.text))
  | .folder => some (.error .isFolder)
  | .tooLong => some (.error .tooLong)

/-- The workflow that a name asks for. The first path that leads to something counts. -/
def load (f : Folder) (name : String) : Except LoadError (List Node) :=
  let asked := Path.ofText name
  let direct := if workflowSuffixes.contains asked.suffix then [asked] else []
  match (direct ++ f.places name).findSome? f.workflowAt? with
  | some r => r
  | none => .error (.notFound name ((f.places name).map Path.text))

end Folder

/-- The workflow that comes with a response; nothing in any of its forms is none. -/
def workflowOfResponse (workflow : Data) : Except DocumentError (Option (List Node)) :=
  if workflow.isVoid then .ok none else (readWorkflow workflow).map some

/-- The entry of a response that holds the workflow. -/
def responseWorkflow (response : Data) : Data :=
  match response with
  | .map _ entries => entry entries "workflow"
  | _ => .null

end Walkthrough
