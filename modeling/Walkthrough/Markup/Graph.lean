import Walkthrough.Markup.Implicit
import Walkthrough.Markup.Layout

/-! Documents as graphs. The tokens of a document are nodes inside nodes; an alias is one more way to
the node that its anchor names, which may still be open. Reading goes from token to token, so that
of two faults the first one counts. -/
namespace Walkthrough.Markup

/-- A node. Its parts are other nodes, by their numbers. -/
inductive Vertex where
  | scalar (kind : Kind) (text : String)
  | sequence (kind : Kind) (items : List Nat)
  | mapping (kind : Kind) (entries : List (Nat × Nat))

def Vertex.kind : Vertex → Kind
  | scalar kind _ => kind
  | sequence kind _ => kind
  | mapping kind _ => kind

/-- The nodes of a document, each under its number. -/
abbrev Graph := Array Vertex

namespace Graph

def vertex (g : Graph) (i : Nat) : Vertex := g.getD i (.scalar .null "")

def entries (g : Graph) (i : Nat) : List (Nat × Nat) :=
  match g.vertex i with
  | .mapping _ entries => entries
  | _ => []

end Graph

/-- What is left to read, what is read, and the names known so far. -/
structure Outline where
  tokens : List Token
  /-- Why there are no more tokens, if that is not the end. -/
  stop : Option MarkupError
  handles : List (String × String)
  anchors : List (String × Nat)
  graph : Graph

abbrev Growing := StateT Outline (Except MarkupError)

namespace Growing

def fail {α : Type} : Growing α := throw .malformed

/-- The next token; there is none at the end. -/
def peek : Growing (Option Token) := do
  let o ← get
  match o.tokens, o.stop with
  | t :: _, _ => return some t
  | [], some e => throw e
  | [], none => return none

def advance : Growing Unit := modify fun o => { o with tokens := o.tokens.tail }

/-- Removes a token from the front if it is the one given. -/
def take? (t : Token) : Growing Bool := do
  if (← peek) == some t then
    advance
    return true
  else return false

def expect (t : Token) : Growing Unit := do
  if !(← take? t) then fail

/-- The next token is one of those given. -/
def atAny (ts : List Token) : Growing Bool := do
  return (← peek).any ts.contains

def takeAnchor : Growing (Option String) := do
  match ← peek with
  | some (.anchor name) =>
    advance
    return some name
  | _ => return none

/-- A tag with its handle, which need not be known. -/
def takeTag : Growing (Option (Option String × String)) := do
  match ← peek with
  | some (.tag handle suffix) =>
    advance
    return some (handle, suffix)
  | _ => return none

/-- The text of a tag: a handle stands for the beginning that was agreed on. -/
def tagText (handle : Option String) (suffix : String) : Growing String := do
  match handle with
  | none => return suffix
  | some h =>
    match (← get).handles.lookup h with
    | some lead => return lead ++ suffix
    | none => fail

/-- An anchor and a tag in either order. -/
def properties : Growing (Option String × Option String) := do
  let before ← takeAnchor
  let tag ← takeTag
  let anchor ← if before.isNone && tag.isSome then takeAnchor else pure before
  match tag with
  | none => return (anchor, none)
  | some (handle, suffix) => return (anchor, some (← tagText handle suffix))

/-- The number of a new node. Every name is given once, from where its node begins. -/
def begin (anchor : Option String) (v : Vertex) : Growing Nat := do
  let o ← get
  let i := o.graph.size
  match anchor with
  | none => set { o with graph := o.graph.push v }
  | some a =>
    if (o.anchors.lookup a).isSome then fail
    set { o with graph := o.graph.push v, anchors := (a, i) :: o.anchors }
  return i

/-- Gives a node the parts that were read for it. -/
def complete (i : Nat) (v : Vertex) : Growing Nat := do
  modify fun o => { o with graph := o.graph.setIfInBounds i v }
  return i

/-- The empty scalar, which stands where a node is left out. -/
def blank : Growing Nat := begin none (.scalar (.ofPlain "") "")

/-- The kind of a collection; an exclamation mark alone says nothing. -/
def collectionKind (tag : Option String) (untagged : Kind) : Kind :=
  match tag with
  | some t => if t == "!" then untagged else .ofTag t
  | none => untagged

/-- The kind of a scalar; an exclamation mark alone has it read as a plain one. -/
def scalarKind (tag : Option String) (plain : Bool) (text : String) : Kind :=
  match tag with
  | some t => if t == "!" then .ofPlain text else .ofTag t
  | none => if plain then .ofPlain text else .text

mutual

/-- A node; `block` admits block collections, `dense` also items at the column of their key. Every
call takes a token or is followed by one that does. -/
def node : Nat → Bool → Bool → Growing Nat
  | 0, _, _ => fail
  | fuel + 1, block, dense => do
    match ← peek with
    | some (.alias a) =>
      advance
      match (← get).anchors.lookup a with
      | some i => return i
      | none => fail
    | _ =>
      let (anchor, tag) ← properties
      let asList := collectionKind tag .list
      let asMap := collectionKind tag .map
      match ← peek with
      | some (.scalar text plain) =>
        advance
        begin anchor (.scalar (scalarKind tag plain text) text)
      | some .openSequence =>
        let i ← begin anchor (.sequence asList [])
        advance
        complete i (.sequence asList (← flowItems fuel true))
      | some .openMapping =>
        let i ← begin anchor (.mapping asMap [])
        advance
        complete i (.mapping asMap (← flowPairs fuel true))
      | next =>
        if dense && next == some .item then
          let i ← begin anchor (.sequence asList [])
          complete i (.sequence asList (← denseItems fuel))
        else if block && next == some .blockSequence then
          let i ← begin anchor (.sequence asList [])
          advance
          complete i (.sequence asList (← blockItems fuel))
        else if block && next == some .blockMapping then
          let i ← begin anchor (.mapping asMap [])
          advance
          complete i (.mapping asMap (← blockPairs fuel))
        else if anchor.isSome || tag.isSome then
          begin anchor (.scalar (scalarKind tag true "") "")
        else fail

/-- A node, or the empty one if one of these tokens comes first. -/
def nodeUnless : Nat → List Token → Bool → Bool → Growing Nat
  | 0, _, _, _ => fail
  | fuel + 1, ends, block, dense => do
    if ← atAny ends then blank else node fuel block dense

def blockItems : Nat → Growing (List Nat)
  | 0 => fail
  | fuel + 1 => do
    if ← take? .item then
      let i ← nodeUnless fuel [.item, .blockEnd] true false
      return i :: (← blockItems fuel)
    else
      expect .blockEnd
      return []

/-- Items at the column of the key that they belong to; no token ends them. -/
def denseItems : Nat → Growing (List Nat)
  | 0 => fail
  | fuel + 1 => do
    if ← take? .item then
      let i ← nodeUnless fuel [.item, .key, .value, .blockEnd] true false
      return i :: (← denseItems fuel)
    else return []

def blockPairs : Nat → Growing (List (Nat × Nat))
  | 0 => fail
  | fuel + 1 => do
    if ← take? .key then
      let k ← nodeUnless fuel [.key, .value, .blockEnd] true true
      let v ← if ← take? .value then nodeUnless fuel [.key, .value, .blockEnd] true true else blank
      return (k, v) :: (← blockPairs fuel)
    else
      expect .blockEnd
      return []

/-- A key and its value inside brackets that a given token closes. -/
def flowPair : Nat → Token → Growing (Nat × Nat)
  | 0, _ => fail
  | fuel + 1, close => do
    let k ← nodeUnless fuel [.value, .comma, close] false false
    let v ← if ← take? .value then nodeUnless fuel [.comma, close] false false else blank
    return (k, v)

/-- Items up to the closing bracket; a pair is a mapping of its own. -/
def flowItems : Nat → Bool → Growing (List Nat)
  | 0, _ => fail
  | fuel + 1, first => do
    if ← take? .closeSequence then return []
    if !first then expect .comma
    if ← take? .key then
      let i ← begin none (.mapping .map [])
      let i ← complete i (.mapping .map [← flowPair fuel .closeSequence])
      return i :: (← flowItems fuel false)
    else if ← take? .closeSequence then return []
    else
      let i ← node fuel false false
      return i :: (← flowItems fuel false)

def flowPairs : Nat → Bool → Growing (List (Nat × Nat))
  | 0, _ => fail
  | fuel + 1, first => do
    if ← take? .closeMapping then return []
    if !first then expect .comma
    if ← take? .key then
      let p ← flowPair fuel .closeMapping
      return p :: (← flowPairs fuel false)
    else if ← take? .closeMapping then return []
    else
      let k ← node fuel false false
      let v ← blank
      return (k, v) :: (← flowPairs fuel false)

end

def isDirective : Token → Bool
  | .directive _ => true
  | _ => false

/-- Takes the directives in front of a document: one version, of which the first part is one, and
handles that are given once. -/
def directives : Nat → Bool → List (String × String) → Growing (List (String × String))
  | 0, _, _ => fail
  | fuel + 1, seen, handles => do
    match ← peek with
    | some (.directive (.version major)) =>
      if seen || major != 1 then fail
      advance
      directives fuel true handles
    | some (.directive (.handle h lead)) =>
      if (handles.lookup h).isSome then fail
      advance
      directives fuel seen ((h, lead) :: handles)
    | some (.directive .other) =>
      advance
      directives fuel seen handles
    | _ => return handles

def dropEnds : Nat → Growing Unit
  | 0 => fail
  | fuel + 1 => do
    if ← take? .documentEnd then dropEnds fuel

def knownHandles : List (String × String) := [("!", "!"), ("!!", standardTag "")]

/-- The start of a document that is marked, with the directives in front of it. -/
def openDocument (fuel : Nat) : Growing Unit := do
  let handles ← directives fuel false []
  expect .documentStart
  modify fun o => { o with handles := handles ++ knownHandles }

/-- The one document of a stream; a stream without any token holds the empty scalar. Without
directives its start need not be marked. -/
def document (fuel : Nat) : Growing Nat := do
  let root ←
    match ← peek with
    | none => blank
    | some t =>
      if isDirective t || t == .documentStart then
        openDocument fuel
        if (← peek).all fun t => isDirective t || t == .documentStart || t == .documentEnd then blank
        else node fuel true false
      else node fuel true false
  dropEnds fuel
  if (← peek).isSome then
    openDocument fuel
    fail
  return root

end Growing

/-- The graph of a stream and the node that it holds. -/
def Graph.ofTokens (s : Scan) : Except MarkupError (Graph × Nat) := do
  let (root, o) ← (Growing.document (4 * s.tokens.length + 4)).run
    ⟨s.tokens, s.stop, Growing.knownHandles, [], #[]⟩
  return (o.graph, root)

end Walkthrough.Markup
