import Walkthrough.Markup.Glyph
import Walkthrough.Value.Basic

/-! What the nodes of a document are read as, and what they then hold. Nodes are numbered, and a
collection holds the numbers of its parts: a part may stand in several places, even in itself. -/
namespace Walkthrough.Markup

/-- What a node is to be read as. Nothing is read as a merge key, an equals sign or an unknown
kind. -/
inductive Kind where
  | null
  | bool
  | int
  | float
  | moment
  | bytes
  | text
  | list
  | map
  | set
  | orderedPairs
  | pairs
  | merge
  | value
  | unknown
  deriving DecidableEq, Repr

/-- The tag of a kind that every document knows. -/
def standardTag (kind : String) : String := "tag:yaml.org,2002:" ++ kind

namespace Kind

def named : List (String × Kind) :=
  [("null", .null), ("bool", .bool), ("int", .int), ("float", .float), ("timestamp", .moment),
    ("binary", .bytes), ("str", .text), ("seq", .list), ("map", .map), ("set", .set),
    ("omap", .orderedPairs), ("pairs", .pairs), ("merge", .merge), ("value", .value)]

def ofTag (tag : String) : Kind :=
  ((named.find? fun entry => standardTag entry.1 == tag).map (·.2)).getD .unknown

end Kind

/-- What a node holds once it has been read. -/
inductive Content where
  | scalar (s : Scalar)
  /-- The sign for what is not a number; as a key it is one, unlike a numeral that spells none. -/
  | notNumber
  | bytes (bs : List UInt8)
  | list (items : List Nat)
  | pairs (ps : List (Nat × Nat))
  | map (entries : List (Nat × Nat))
  | set (elements : List Nat)

/-- Only what has no parts may be a key. -/
def Content.isKey : Content → Bool
  | scalar _ | notNumber | bytes _ => true
  | _ => false

/-- The contents of all nodes, and the node that the document is. A node that nothing refers to
holds nothing. -/
structure Document where
  contents : Array Content
  root : Nat

def Document.content (d : Document) (i : Nat) : Content := d.contents.getD i (.scalar .null)

end Walkthrough.Markup
