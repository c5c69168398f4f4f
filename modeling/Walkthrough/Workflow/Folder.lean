import Walkthrough.Text.Parts

/-! Files of workflows, found by path. A path is a chain of names behind a root; empty names and
single points in it say nothing and are left out, double points stay as they are written. Relative
paths start in the folder itself. No name has more than 255 bytes, and no path more than 4095. -/
namespace Walkthrough

structure Path where
  /-- One slash, two slashes, or nothing for a relative path. -/
  root : String
  names : List String
  deriving DecidableEq, Repr

namespace Path

def separator : String := "/"

/-- Two slashes are a root of their own, three or more are one. -/
def rootOf (cs : List Char) : String :=
  match cs with
  | '/' :: '/' :: '/' :: _ => "/"
  | '/' :: '/' :: _ => "//"
  | '/' :: _ => "/"
  | _ => ""

def ofText (s : String) : Path :=
  ⟨rootOf s.toList, (Text.split separator s).filter fun name => name != "" && name != "."⟩

def text (p : Path) : String :=
  let joined := separator.intercalate p.names
  if p.root.isEmpty && joined.isEmpty then "." else p.root ++ joined

/-- A path as seen from a folder: an absolute one does not depend on it. -/
def under (folder p : Path) : Path :=
  if p.root.isEmpty then ⟨folder.root, folder.names ++ p.names⟩ else p

/-- The last point of a name with what follows it; neither the first nor the last character of a
name begins a suffix. -/
def nameSuffix (name : String) : String :=
  match (Text.partsOf ['.'] name.toList).reverse with
  | last :: before :: rest =>
    if last.isEmpty || (before.isEmpty && rest.isEmpty) then "" else "." ++ String.ofList last
  | _ => ""

def suffix (p : Path) : String := (p.names.getLast?.map nameSuffix).getD ""

end Path

/-- What a path leads to. -/
inductive Target where
  | nothing
  | file (text : String)
  | folder
  /-- The path, or a name on its way, is longer than any can be. -/
  | tooLong
  deriving DecidableEq, Repr

/-- Texts of the files below a folder, each under its names from there. -/
structure Folder where
  place : Path
  files : List (List String × String)

namespace Folder

def ofFiles (place : String) (files : List (String × String)) : Folder :=
  ⟨.ofText place, files.map fun (name, text) => ((Path.ofText name).names, text)⟩

def isTooLong (name : String) : Bool := 255 < name.utf8ByteSize

/-- Some file lies below these names. -/
def hasFolder (f : Folder) (names : List String) : Bool :=
  names.isEmpty || f.files.any fun file => names.isPrefixOf file.1 && file.1 != names

/-- What the names from a place on lead to. They only lead through folders that exist, double points
back out of them. -/
def targetFrom (f : Folder) (walked : List String) : List String → Target
  | [] =>
    match f.files.lookup walked with
    | some text => .file text
    | none => if f.hasFolder walked then .folder else .nothing
  | name :: rest =>
    if !f.hasFolder walked then .nothing
    else if name == ".." then
      if walked.isEmpty then .nothing else targetFrom f walked.dropLast rest
    else if isTooLong name then .tooLong
    else targetFrom f (walked ++ [name]) rest

/-- The names of a path below the folder, if it leads there. -/
def namesBelow? (f : Folder) (p : Path) : Option (List String) :=
  if p.root.isEmpty then some p.names
  else if p.root == f.place.root && f.place.names.isPrefixOf p.names then
    some (p.names.drop f.place.names.length)
  else none

/-- What a path leads to. Of what is outside the folder only the root is known to exist. -/
def target (f : Folder) (p : Path) : Target :=
  if 4096 ≤ p.text.utf8ByteSize then .tooLong
  else
    match f.namesBelow? p with
    | some names => f.targetFrom [] names
    | none => if (p.names.head?).any isTooLong then .tooLong else .nothing

end Folder

end Walkthrough
