import Walkthrough.Markup.Quoted

/-! Plain scalars: words without quotes, which may go on over several lines as long as these stand
deeper than the block they belong to. Inside brackets the signs of flow collections end them. -/
namespace Walkthrough.Markup

def isFlowSign (c : Char) : Bool := c == ',' || c == '[' || c == ']' || c == '\x7b' || c == '\x7d'

/-- A plain scalar ends before this character. A colon ends it before a blank, and inside brackets
before a sign. -/
def endsPlain (flow : Bool) (c : Char) (rest : Glyphs) : Bool :=
  isSpace c || isBreak c || (flow && (isFlowSign c || c == '?')) ||
    (c == ':' && (rest.atBlank || (flow && rest.first?.any isFlowSign)))

/-- The part of a plain scalar up to the next blank or sign. -/
def plainWord (flow : Bool) : Glyphs → List Char × Glyphs
  | [] => ([], [])
  | g :: rest =>
    if endsPlain flow g.char rest then ([], g :: rest)
    else
      let (cs, s) := plainWord flow rest
      (g.char :: cs, s)

/-- Breaks of blank lines after a line of a plain scalar; none when a document ends there. -/
def plainBreaks : Glyphs → Option (List Char) × Glyphs
  | [] => (some [], [])
  | g :: rest =>
    if g.column == 0 && Glyphs.separates (g :: rest) then (none, g :: rest)
    else if g.char == ' ' then plainBreaks rest
    else if isBreak g.char then
      let (breaks, s) := plainBreaks rest
      (breaks.map (g.char :: ·), s)
    else (some [], g :: rest)

/-- What stands between two words: no text where the scalar must end. -/
structure PlainGap where
  text : List Char
  leftLine : Bool
  rest : Glyphs

def plainGap (s : Glyphs) : PlainGap :=
  let (spaces, after) := s.span (· == ' ')
  match after with
  | [] => ⟨spaces, false, []⟩
  | g :: more =>
    if isBreak g.char then
      let (breaks, rest) := plainBreaks more
      ⟨((breaks.map (folded g.char)).getD []), true, rest⟩
    else ⟨spaces, false, after⟩

structure PlainText where
  text : List Char
  /-- A line was left behind the last word. -/
  leftLine : Bool
  rest : Glyphs

def outdented (indent : Int) (s : Glyphs) : Bool := s.head?.any fun g => (g.column : Int) < indent

/-- Words and the gaps between them; a gap counts once a word follows it. -/
def plainWithin (flow : Bool) (indent : Int) : Nat → PlainGap → PlainText
  | 0, gap => ⟨[], gap.leftLine, gap.rest⟩
  | fuel + 1, gap =>
    let (word, after) := plainWord flow gap.rest
    if word.isEmpty || gap.rest.startsWith '#' then ⟨[], gap.leftLine, gap.rest⟩
    else
      let next := plainGap after
      if next.text.isEmpty || (!flow && outdented indent next.rest) then
        ⟨gap.text ++ word, next.leftLine, next.rest⟩
      else
        let more := plainWithin flow indent fuel next
        { more with text := gap.text ++ word ++ more.text }

/-- A plain scalar of a document with so many glyphs; every word takes one. -/
def plainScalar (flow : Bool) (indent : Int) (size : Nat) (s : Glyphs) : PlainText :=
  plainWithin flow indent size ⟨[], false, s⟩

end Walkthrough.Markup
