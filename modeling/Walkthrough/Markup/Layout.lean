import Walkthrough.Markup.Block
import Walkthrough.Markup.Plain
import Walkthrough.Markup.Token

/-! Tokens from the layout of a document. Outside brackets the column of an item or a key opens a
block and a smaller column closes it. A key is known only by the colon behind it, so the place in
front of everything that might be one is kept until the colon comes, the line ends, or the place
is too far back. -/
namespace Walkthrough.Markup

/-- The place before something that a colon would make a key. -/
structure PossibleKey where
  /-- How many tokens stand before it. -/
  place : Nat
  /-- It stands where the block has its keys, so that it can be nothing else. -/
  required : Bool
  start : Glyph

/-- A key is on one line with its colon, and not more than 1024 characters before it. -/
def PossibleKey.isStale (k : PossibleKey) (g : Glyph) : Bool :=
  k.start.line != g.line || 1024 < g.index - k.start.index

structure Layout where
  /-- How many glyphs the document has. -/
  size : Nat
  rest : Glyphs
  /-- Tokens so far, the latest first. -/
  found : List Token
  /-- How many tokens there are. -/
  count : Nat
  /-- The column of the innermost block; minus one outside of all. -/
  indent : Int
  /-- The columns of the blocks around it. -/
  outer : List Int
  possible : Option PossibleKey
  /-- The possible keys around the open brackets, one for each bracket. -/
  around : List (Option PossibleKey)
  keyAllowed : Bool

namespace Layout

abbrev Step := Except MarkupError Layout

def start (s : Glyphs) : Layout := ⟨s.length, s, [], 0, -1, [], none, [], true⟩

def inFlow (l : Layout) : Bool := !l.around.isEmpty

def push (l : Layout) (t : Token) : Layout :=
  { l with found := t :: l.found, count := l.count + 1 }

def emit (l : Layout) (t : Token) (rest : Glyphs) : Layout := { l.push t with rest := rest }

/-- Closes blocks, whose outer columns are given, down to a column. -/
def closeBlocks (column : Int) : List Int → Layout → Layout
  | [], l => l
  | o :: outer, l =>
    if column < l.indent then
      closeBlocks column outer { l.push .blockEnd with indent := o, outer := outer }
    else l

/-- Closes the blocks that are deeper than a column. -/
def unwind (l : Layout) (column : Int) : Layout :=
  if l.inFlow then l else closeBlocks column l.outer l

/-- Gives up the possible key, which must not be one that is required. -/
def dropKey (l : Layout) : Step :=
  if l.possible.any PossibleKey.required then .error .malformed
  else .ok { l with possible := none }

def allow (l : Layout) (allowed : Bool) : Layout := { l with keyAllowed := allowed }

/-- Remembers that a key may begin here. -/
def saveKey (l : Layout) (g : Glyph) : Step :=
  if l.keyAllowed then do
    let l ← l.dropKey
    return { l with possible := some ⟨l.count, !l.inFlow && l.indent == g.column, g⟩ }
  else .ok l

def fresh (g : Glyph) (k : Option PossibleKey) : Except MarkupError (Option PossibleKey) :=
  match k with
  | none => .ok none
  | some k =>
    if k.isStale g then if k.required then .error .malformed else .ok none
    else .ok (some k)

def dropStale (l : Layout) (g : Glyph) : Step := do
  let possible ← fresh g l.possible
  let around ← l.around.mapM (fresh g)
  return { l with possible := possible, around := around }

/-- Opens a block at a column that is deeper than the innermost one. -/
def openBlock (l : Layout) (column : Nat) (t : Token) : Layout :=
  if l.indent < column then
    { l.push t with indent := column, outer := l.indent :: l.outer }
  else l

/-- A directive or the sign between two documents ends all blocks. -/
def atMargin (l : Layout) : Step := do
  return (← (l.unwind (-1)).dropKey).allow false

def bracket (l : Layout) (g : Glyph) (t : Token) (rest : Glyphs) : Step := do
  let l ← l.saveKey g
  return { l with possible := none, around := l.possible :: l.around, keyAllowed := true }.emit t rest

/-- A closing bracket needs an open one. -/
def unbracket (l : Layout) (t : Token) (rest : Glyphs) : Step := do
  let l ← l.dropKey
  match l.around with
  | [] => .error .malformed
  | k :: around =>
    return { l with possible := k, around := around, keyAllowed := false }.emit t rest

def comma (l : Layout) (rest : Glyphs) : Step := do
  return ((← l.dropKey).allow true).emit .comma rest

def item (l : Layout) (g : Glyph) (rest : Glyphs) : Step := do
  if !l.inFlow && !l.keyAllowed then throw .malformed
  let l := if l.inFlow then l else l.openBlock g.column .blockSequence
  return ((← l.dropKey).allow true).emit .item rest

def explicitKey (l : Layout) (g : Glyph) (rest : Glyphs) : Step := do
  if !l.inFlow && !l.keyAllowed then throw .malformed
  let l := if l.inFlow then l else l.openBlock g.column .blockMapping
  return ((← l.dropKey).allow !l.inFlow).emit .key rest

/-- Puts the key token where a possible key began, and opens its block there. -/
def confirmKey (l : Layout) (k : PossibleKey) : Layout :=
  let (later, before) := l.found.splitAt (l.count - k.place)
  let opened := { l with found := before, possible := none }
  let opened := if l.inFlow then opened else opened.openBlock k.start.column .blockMapping
  let opened := opened.push .key
  { opened with found := later ++ opened.found }

def value (l : Layout) (g : Glyph) (rest : Glyphs) : Step :=
  match l.possible with
  | some k => .ok (((l.confirmKey k).allow false).emit .value rest)
  | none => do
    if !l.inFlow && !l.keyAllowed then throw .malformed
    let l := if l.inFlow then l else l.openBlock g.column .blockMapping
    return ((← l.dropKey).allow !l.inFlow).emit .value rest

/-- A token that may be the start of a key. -/
def node (l : Layout) (g : Glyph) (read : Except MarkupError (Token × Glyphs)) : Step := do
  let l ← l.saveKey g
  let (t, rest) ← read
  return (l.allow false).emit t rest

def block (l : Layout) (fold : Bool) (rest : Glyphs) : Step := do
  let l ← l.dropKey
  let (text, rest) ← blockScalar fold l.indent l.size rest
  return (l.allow true).emit (.scalar text false) rest

def plain (l : Layout) (g : Glyph) : Step := do
  let l ← l.saveKey g
  let p := plainScalar l.inFlow (l.indent + 1) l.size l.rest
  return (l.allow p.leftLine).emit (.scalar (String.ofList p.text) true) p.rest

/-- Signs that cannot begin a plain scalar. -/
def isIndicator (c : Char) : Bool :=
  isFlowSign c || c == '-' || c == '?' || c == ':' || c == '#' || c == '&' || c == '*' ||
    c == '!' || c == '|' || c == '>' || c == '\'' || c == '"' || c == '%' || c == '@' ||
    c == '\x60'

def startsPlain (flow : Bool) (c : Char) (rest : Glyphs) : Bool :=
  !(isIndicator c || isSpace c || isBreak c) ||
    (!rest.atBlank && (c == '-' || (!flow && (c == '?' || c == ':'))))

/-- The token at a glyph. -/
def token (l : Layout) (g : Glyph) (rest : Glyphs) : Step :=
  let c := g.char
  let s := g :: rest
  let loose := l.inFlow || rest.atBlank
  if g.column == 0 && c == '%' then do
    let l ← l.atMargin
    let (t, rest) ← directiveToken rest
    return l.emit t rest
  else if g.column == 0 && Glyphs.separates s then do
    let l ← l.atMargin
    return l.emit (if c == '-' then .documentStart else .documentEnd) (Glyphs.skip 3 s)
  else if c == '[' then l.bracket g .openSequence rest
  else if c == '\x7b' then l.bracket g .openMapping rest
  else if c == ']' then l.unbracket .closeSequence rest
  else if c == '\x7d' then l.unbracket .closeMapping rest
  else if c == ',' then l.comma rest
  else if c == '-' && rest.atBlank then l.item g rest
  else if c == '?' && loose then l.explicitKey g rest
  else if c == ':' && loose then l.value g rest
  else if c == '*' then l.node g ((anchorName rest).map fun (n, s) => (.alias n, s))
  else if c == '&' then l.node g ((anchorName rest).map fun (n, s) => (.anchor n, s))
  else if c == '!' then l.node g (tagToken s)
  else if !l.inFlow && (c == '|' || c == '>') then l.block (c == '>') rest
  else if c == '\'' || c == '"' then
    l.node g ((quotedScalar (c == '"') l.size rest).map fun (t, s) => (.scalar t false, s))
  else if startsPlain l.inFlow c rest then l.plain g
  else .error .malformed

/-- The end of the document closes all blocks; no required key may be left. -/
def finish (l : Layout) : Except MarkupError (List Token) := do
  let l ← (l.unwind (-1)).dropKey
  if l.around.any fun k => k.any PossibleKey.required then throw .malformed
  return l.found.reverse

/-- The tokens in front of all places where a key may still begin: no key can come before any of
them any more. -/
def settled (l : Layout) : List Token :=
  match l.rest with
  | [] => l.found.reverse
  | g :: _ =>
    let pending := ((l.possible :: l.around).filterMap id).filter fun k => !k.isStale g
    l.found.reverse.take (pending.foldl (fun n k => min n k.place) l.count)

end Layout

/-- The tokens of a text, or those in front of a part that cannot be read. -/
structure Scan where
  tokens : List Token
  stop : Option MarkupError

/-- Reads token after token; each takes at least one glyph. What is malformed is so wherever it
stands, other errors count only once everything in front of them has been read. -/
def Layout.run : Nat → Layout → Except MarkupError Scan
  | 0, _ => .error .malformed
  | fuel + 1, before => do
    let (leftLine, s) := before.rest.dropGap false false
    let l := { before with rest := s, keyAllowed := before.keyAllowed || (leftLine && !before.inFlow) }
    match s with
    | [] => return ⟨← l.finish, none⟩
    | g :: rest =>
      let l ← l.dropStale g
      match (l.unwind g.column).token g rest with
      | .ok l => run fuel l
      | .error .malformed => .error .malformed
      | .error e => return ⟨before.settled, some e⟩

/-- The tokens of a text; a character that no document may hold makes it none. -/
def scan (cs : List Char) : Except MarkupError Scan :=
  if cs.all isPrintable then
    let l := Layout.start (glyphs cs)
    l.run (l.size + 1)
  else .error .malformed

end Walkthrough.Markup
