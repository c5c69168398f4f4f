import Walkthrough.Markup.Glyph

/-! Block scalars: lines that stand deeper than the block they belong to. The literal style keeps
their breaks, the folded style joins lines of text with a space. What happens to the last breaks is
said by a sign behind the indicator, the depth by a digit or by the first line of text. -/
namespace Walkthrough.Markup

/-- The last break of a block scalar and the blank lines behind it: all gone, the break kept, or
all kept. -/
inductive Chomping where
  | strip
  | clip
  | keep
  deriving DecidableEq, Repr

structure BlockHeader where
  chomping : Chomping
  depth : Option Nat

def chompingOf? (c : Char) : Option Chomping :=
  if c == '+' then some .keep else if c == '-' then some .strip else none

/-- A digit from one to nine. -/
def depthOf? (c : Char) : Option Nat :=
  if '1' ≤ c && c ≤ '9' then some (c.toNat - 48) else none

/-- A sign and a digit in either order, both optional, then the end of the line. -/
def blockHeader? (s : Glyphs) : Option (BlockHeader × Glyphs) := do
  let sign := s.first?.bind chompingOf?
  let s := if sign.isSome then s.skip 1 else s
  let depth := s.first?.bind depthOf?
  let s := if depth.isSome then s.skip 1 else s
  let late := if sign.isNone && depth.isSome then s.first?.bind chompingOf? else none
  let s := if late.isSome then s.skip 1 else s
  if s.atGap then
    let rest ← s.endLine?
    return (⟨(sign.orElse fun _ => late).getD .clip, depth⟩, rest)
  else none

/-- The breaks of leading blank lines, and the deepest column that spaces reach. -/
def leadingBreaks (deepest : Nat) : Glyphs → List Char × Nat × Glyphs
  | [] => ([], deepest, [])
  | g :: rest =>
    if g.char == ' ' then leadingBreaks (max deepest (g.column + 1)) rest
    else if isBreak g.char then
      let (breaks, found, s) := leadingBreaks deepest rest
      (g.char :: breaks, found, s)
    else ([], deepest, g :: rest)

/-- The breaks of blank lines, and the text behind the indentation of the next line. -/
def blankLines (indent : Nat) : Glyphs → List Char × Glyphs
  | [] => ([], [])
  | g :: rest =>
    if g.char == ' ' && g.column < indent then blankLines indent rest
    else if isBreak g.char then
      let (breaks, s) := blankLines indent rest
      (g.char :: breaks, s)
    else ([], g :: rest)

structure BlockText where
  text : List Char
  lastBreak : List Char
  /-- Blank lines behind the last break. -/
  blank : List Char
  rest : Glyphs

def atColumn (indent : Nat) (s : Glyphs) : Bool := s.head?.any fun g => g.column == indent

def startsDeeper (s : Glyphs) : Bool := s.first?.any isSpace

/-- The text between two lines: a folded break is a space, or nothing before blank lines. Lines
that are indented further are not joined. -/
def between (fold : Bool) (lineBreak blank : List Char) (line next : Glyphs) : List Char :=
  if fold && lineBreak == ['\n'] && !startsDeeper line && !startsDeeper next then
    if blank.isEmpty then [' '] else []
  else lineBreak

/-- The lines at a given column, the first of them after some blank ones. -/
def blockLines (fold : Bool) (indent : Nat) : Nat → List Char → Glyphs → BlockText
  | 0, blank, s => ⟨[], [], blank, s⟩
  | fuel + 1, blank, s =>
    if atColumn indent s then
      let (line, after) := s.span fun c => !isBreak c
      let (lineBreak, after) := after.splitBreak
      let (next, rest) := blankLines indent after
      if atColumn indent rest then
        let more := blockLines fold indent fuel next rest
        { more with text := blank ++ line ++ between fold lineBreak next s rest ++ more.text }
      else ⟨blank ++ line, lineBreak, next, rest⟩
    else ⟨[], [], blank, s⟩

def BlockText.chomp (b : BlockText) : Chomping → List Char
  | .strip => b.text
  | .clip => b.text ++ b.lastBreak
  | .keep => b.text ++ b.lastBreak ++ b.blank

/-- A block scalar of a document with so many glyphs, from behind its indicator, inside a block at
column `indent`; outside of all blocks that is minus one. -/
def blockScalar (fold : Bool) (indent : Int) (size : Nat) (s : Glyphs) :
    Except MarkupError (String × Glyphs) :=
  match blockHeader? s with
  | none => .error .malformed
  | some (header, s) =>
    let least := max 1 (indent + 1).toNat
    let (blank, column, s) := match header.depth with
      | some depth =>
        let column := least + depth - 1
        let (blank, s) := blankLines column s
        (blank, column, s)
      | none =>
        let (blank, deepest, s) := leadingBreaks 0 s
        (blank, max least deepest, s)
    let b := blockLines fold column size blank s
    .ok (String.ofList (b.chomp header.chomping), b.rest)

end Walkthrough.Markup
