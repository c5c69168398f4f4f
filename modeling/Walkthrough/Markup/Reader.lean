import Walkthrough.Markup.Merge

/-! Reading of documents. A scalar is read when it is met. A collection is first begun, empty; what
was begun first is completed first, and only then are its parts met. So a collection may hold
itself, and of two faults the one that is less deep counts. -/
namespace Walkthrough.Markup

structure Reading where
  graph : Graph
  /-- What the nodes hold that have been met. -/
  contents : Array (Option Content)
  /-- Collections that are begun but not completed, the first one first. -/
  begun : List Nat

namespace Reading

abbrev Step := StateT Reading (Except MarkupError)

def put (i : Nat) (c : Content) : Step Unit :=
  modify fun r => { r with contents := r.contents.setIfInBounds i (some c) }

/-- The text of a scalar. A mapping passes for the scalar under its equals sign. -/
def scalarText (g : Graph) : Nat → Nat → Except MarkupError String
  | 0, _ => .error .endless
  | fuel + 1, i =>
    match g.vertex i with
    | .scalar _ text => .ok text
    | .sequence .. => .error .malformed
    | .mapping _ entries =>
      match entries.find? fun entry => (g.vertex entry.1).kind == .value with
      | some entry => scalarText g fuel entry.2
      | none => .error .malformed

def isScalar : Vertex → Bool
  | .scalar .. => true
  | _ => false

/-- The empty collection of a kind. -/
def emptyOf? : Kind → Option Content
  | .list => some (.list [])
  | .map => some (.map [])
  | .set => some (.set [])
  | .orderedPairs => some (.pairs [])
  | .pairs => some (.pairs [])
  | _ => none

/-- Kinds that no node can be read as. -/
def isUnreadable (kind : Kind) : Bool := kind == .merge || kind == .value || kind == .unknown

/-- Meets a node: a scalar is read, a collection is begun. -/
def meet (i : Nat) : Step Unit := do
  let r ← get
  if ((r.contents.getD i none).isNone) then
    let v := r.graph.vertex i
    match emptyOf? v.kind with
    | some c =>
      put i c
      modify fun r => { r with begun := r.begun ++ [i] }
    | none =>
      if isUnreadable v.kind then throw .malformed
      let text ← scalarText r.graph (r.graph.size + 1) i
      if v.kind == .moment && !isScalar v then throw .notText
      put i (← v.kind.read text)

def content (r : Reading) (i : Nat) : Content := (r.contents.getD i none).getD (.scalar .null)

/-- Two keys are one. -/
def sameKey (r : Reading) (i j : Nat) : Bool :=
  i == j ||
    match r.content i, r.content j with
    | .scalar s, .scalar t => s.sameKey t
    | .notNumber, .notNumber => true
    | .bytes bs, .bytes cs => bs == cs
    | _, _ => false

/-- Writing a key anew keeps its place. -/
def insert (r : Reading) (k v : Nat) : List (Nat × Nat) → List (Nat × Nat)
  | [] => [(k, v)]
  | (key, old) :: rest =>
    if r.sameKey key k then (key, v) :: rest else (key, old) :: insert r k v rest

/-- Entries of a mapping, each key once; only what has no parts may be a key. -/
def entriesOf (i : Nat) : Step (List (Nat × Nat)) := do
  match (← get).graph.vertex i with
  | .mapping .. =>
    let g ← (← get).graph.merged i
    modify fun r => { r with graph := g }
    (g.entries i).foldlM (fun found entry => do
      meet entry.1
      if !((← get).content entry.1).isKey then throw .malformed
      meet entry.2
      return (← get).insert entry.1 entry.2 found) []
  | _ => throw .malformed

/-- The one entry of a mapping. -/
def pairOf (i : Nat) : Step (Nat × Nat) := do
  match (← get).graph.vertex i with
  | .mapping _ [(k, v)] =>
    meet k
    meet v
    return (k, v)
  | _ => throw .malformed

/-- The items of a sequence. -/
def itemsOf (i : Nat) : Step (List Nat) := do
  match (← get).graph.vertex i with
  | .sequence _ items => return items
  | _ => throw .malformed

/-- Completes a collection, meeting its parts. -/
def complete (i : Nat) : Step Unit := do
  match (← get).content i with
  | .list _ =>
    let items ← itemsOf i
    items.forM meet
    put i (.list items)
  | .map _ => put i (.map (← entriesOf i))
  | .set _ => put i (.set ((← entriesOf i).map (·.1)))
  | .pairs _ => put i (.pairs (← (← itemsOf i).mapM pairOf))
  | _ => return

/-- Completes what has been begun until nothing is left. Every node is begun once. -/
def completeAll : Nat → Step Unit
  | 0 => return
  | fuel + 1 => do
    match (← get).begun with
    | [] => return
    | i :: rest =>
      modify fun r => { r with begun := rest }
      complete i
      completeAll fuel

end Reading

def Document.ofGraph (g : Graph) (root : Nat) : Except MarkupError Document := do
  let steps : Reading.Step Unit := do
    Reading.meet root
    Reading.completeAll g.size
  let (_, r) ← steps.run ⟨g, Array.replicate g.size none, []⟩
  return ⟨r.contents.map fun c => c.getD (.scalar .null), root⟩

/-- The document that a text holds. -/
def read (text : String) : Except MarkupError Document := do
  let (g, root) ← Graph.ofTokens (← scan text.toList)
  Document.ofGraph g root

end Walkthrough.Markup
