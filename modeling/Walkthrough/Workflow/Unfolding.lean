import Walkthrough.Markup.Listing

/-! Documents unfolded to values. Entries that no workflow looks at are left out, however much they
hold. What has no end as a value, a collection inside itself, is cut off with the text that shows
it, and so are bytes and sets; where a workflow asks for the parts or for the text of something, it
gets those of the bytes or the set. -/
namespace Walkthrough

/-- What a part of a document is for. -/
inductive Role where
  | document
  | block
  | node
  | fields
  | field
  | attributes
  | pair
  | name
  | type
  | content
  deriving DecidableEq, Repr

namespace Role

/-- What the items of a list are for. -/
def item : Role → Role
  | document | block => node
  | fields => field
  | attributes => pair
  | _ => content

/-- The types of node of which only the keys in the next list are looked at. -/
def nodeTypes : List String :=
  ["user_interaction", "api_call", "decision", "while_loop", "do_while"]

def nodeKeys : List String :=
  ["id", "type", "prompt", "fields", "ended", "api_name", "response_var", "response", "expression",
    "if_block", "else_block", "actions"]

def fieldKeys : List String := ["name", "type", "attributes"]

/-- The keys of a map that are looked at, if not all of them are; the type is that of a node. -/
def keys? (role : Role) (nodeType : Option String) : Option (List String) :=
  match role with
  | document => some ["workflow"]
  | node => if nodeType.any nodeTypes.contains then some nodeKeys else none
  | field => some fieldKeys
  | _ => none

def nodeEntry (key : String) : Role :=
  if key == "id" then name
  else if key == "type" then type
  else if key == "fields" then fields
  else if key == "if_block" || key == "else_block" || key == "actions" then block
  else content

def fieldEntry (key : String) : Role :=
  if key == "name" then name
  else if key == "type" then type
  else if key == "attributes" then attributes
  else content

/-- What the entry of a map under a key is for. -/
def entry (role : Role) (key : Scalar) : Role :=
  match role, key with
  | document, .text k => if k == "workflow" then block else content
  | node, .text k => nodeEntry k
  | field, .text k => fieldEntry k
  | _, _ => content

/-- The parts of bytes and sets matter, as those of any list do. -/
def isTakenApart (role : Role) : Bool := role == fields || role == attributes || role == pair

end Role

namespace Markup

def Content.isEmpty : Content → Bool
  | .list items => items.isEmpty
  | .pairs ps => ps.isEmpty
  | .map entries => entries.isEmpty
  | .set elements => elements.isEmpty
  | .bytes bs => bs.isEmpty
  | _ => false

namespace Document

/-- The key that a node is. -/
def key (d : Document) (i : Nat) : Scalar :=
  match d.content i with
  | .scalar s => s
  | .notNumber => .number .nan
  | _ => .text (d.listed i)

/-- What stands for a node which is no value: the way it is shown, or empty text for what is empty. -/
def standIn (d : Document) (i : Nat) : Data :=
  if (d.content i).isEmpty then .text "" else d.shown i

/-- The text under the type of a map. -/
def typeOf? (d : Document) (entries : List (Nat × Nat)) : Option String :=
  match (entries.find? fun e => d.key e.1 == .text "type").map fun e => d.content e.2 with
  | some (.scalar (.text s)) => some s
  | _ => none

/-- The entries of a map that are looked at. -/
def entriesFor (d : Document) (role : Role) (entries : List (Nat × Nat)) : List (Nat × Nat) :=
  match role.keys? (d.typeOf? entries) with
  | some keys => entries.filter fun e => keys.any fun k => d.key e.1 == .text k
  | none => entries

/-- A node as a value; `around` are the nodes that it stands in, with their roles. -/
def unfoldIn (d : Document) : Nat → List (Nat × Role) → Role → Nat → Data
  | 0, _, _, i => d.standIn i
  | fuel + 1, around, role, i =>
    let unfold := unfoldIn d fuel ((i, role) :: around)
    match d.content i with
    | .scalar s => .atom s
    | .notNumber => .number .nan
    | c =>
      if role == .type then d.shown i
      else if role == .name || around.contains (i, role) then d.standIn i
      else
        match c with
        | .list items => .ofList (items.map (unfold role.item))
        | .pairs ps =>
          .ofList (ps.map fun p => .ofList [unfold .content p.1, unfold .content p.2])
        | .map entries =>
          .ofEntries ((d.entriesFor role entries).map fun e =>
            (d.key e.1, unfold (role.entry (d.key e.1)) e.2))
        | .set elements =>
          if role.isTakenApart then .ofList (elements.map (unfold role.item)) else d.standIn i
        | .bytes bs =>
          if role.isTakenApart then .ofList (bs.map fun b => .int b.toNat) else d.standIn i
        | _ => d.standIn i

/-- The value of a document. A path without a repetition meets each node once in each of its ten
roles at most. -/
def toData (d : Document) : Data := d.unfoldIn (10 * d.contents.size + 1) [] .document d.root

end Document
end Markup
end Walkthrough
