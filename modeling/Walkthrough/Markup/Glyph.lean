/-! Characters of a document with their places. Every line break is one glyph: a carriage return,
a line feed, the two together or a next-line sign count as a line feed, while the line and
paragraph separators stay what they are. -/
namespace Walkthrough.Markup

structure Glyph where
  char : Char
  /-- Number of the line, from zero. -/
  line : Nat
  /-- Characters before this one on its line; byte order marks take no column. -/
  column : Nat
  /-- Characters before this one in the document. -/
  index : Nat
  deriving DecidableEq, Repr

/-- The rest of a document. -/
abbrev Glyphs := List Glyph

def byteOrderMark : Char := '\uFEFF'

/-- Characters that a document may hold. -/
def isPrintable (c : Char) : Bool :=
  let n := c.toNat
  n == 9 || n == 10 || n == 13 || (0x20 ≤ n && n ≤ 0x7E) || n == 0x85 ||
    (0xA0 ≤ n && n ≤ 0xD7FF) || (0xE000 ≤ n && n ≤ 0xFFFD) || 0x10000 ≤ n

/-- A line break, as a glyph holds it. -/
def isBreak (c : Char) : Bool := c == '\n' || c == '\u2028' || c == '\u2029'

def isSpace (c : Char) : Bool := c == ' ' || c == '\t'

def oneBreak : List Char → List Char
  | [] => []
  | '\r' :: '\n' :: rest => '\n' :: oneBreak rest
  | c :: rest => (if c == '\r' || c == '\u0085' then '\n' else c) :: oneBreak rest

def placed (line column index : Nat) : List Char → Glyphs
  | [] => []
  | c :: rest =>
    ⟨c, line, column, index⟩ ::
      (if isBreak c then placed (line + 1) 0 (index + 1) rest
      else placed line (if c == byteOrderMark then column else column + 1) (index + 1) rest)

/-- The glyphs of a text. A byte order mark in front is no part of the document. -/
def glyphs (cs : List Char) : Glyphs :=
  placed 0 0 0 (match oneBreak cs with
    | [] => []
    | c :: rest => if c == byteOrderMark then rest else c :: rest)

namespace Glyphs

def chars (s : Glyphs) : List Char := s.map Glyph.char

def first? (s : Glyphs) : Option Char := s.head?.map Glyph.char

def startsWith (s : Glyphs) (c : Char) : Bool := s.first? == some c

/-- The line ends here. -/
def atLineEnd (s : Glyphs) : Bool := s.first?.all isBreak

/-- A space, a line break or the end comes next. -/
def atGap (s : Glyphs) : Bool := s.first?.all fun c => c == ' ' || isBreak c

/-- A space, a tab, a line break or the end comes next. -/
def atBlank (s : Glyphs) : Bool := s.first?.all fun c => isSpace c || isBreak c

/-- The first characters. -/
def taken (n : Nat) (s : Glyphs) : List Char := chars (s.take n)

/-- Without the first characters. -/
def skip (n : Nat) (s : Glyphs) : Glyphs := s.drop n

/-- Three hyphens or points by themselves. -/
def separates (s : Glyphs) : Bool :=
  (s.taken 3 == ['-', '-', '-'] || s.taken 3 == ['.', '.', '.']) && (s.skip 3).atBlank

/-- A line break at the start, if there is one, and what follows it. -/
def splitBreak : Glyphs → List Char × Glyphs
  | [] => ([], [])
  | g :: rest => if isBreak g.char then ([g.char], rest) else ([], g :: rest)

/-- The leading characters of a class, and what follows them. -/
def span (p : Char → Bool) (s : Glyphs) : List Char × Glyphs :=
  (chars (s.takeWhile fun g => p g.char), s.dropWhile fun g => p g.char)

/-- Without the rest of the line. -/
def dropLine (s : Glyphs) : Glyphs := s.dropWhile fun g => !isBreak g.char

def dropSpaces (s : Glyphs) : Glyphs := s.dropWhile fun g => g.char == ' '

/-- Removes spaces, comments and line breaks; tells whether a line was left. -/
def dropGap (comment left : Bool) : Glyphs → Bool × Glyphs
  | [] => (left, [])
  | g :: rest =>
    if isBreak g.char then dropGap false true rest
    else if comment || g.char == ' ' then dropGap comment left rest
    else if g.char == '#' then dropGap true left rest
    else (left, g :: rest)

/-- Ends a line on which only spaces and a comment may be left. -/
def endLine? (s : Glyphs) : Option Glyphs :=
  let s := s.dropSpaces
  let s := if s.startsWith '#' then s.dropLine else s
  if s.atLineEnd then some s.splitBreak.2 else none

end Glyphs

/-- Why a text is no document, or holds a part that cannot be read. -/
inductive MarkupError where
  | malformed
  | noSuchCharacter
  | notNumber
  | emptyNumber
  | numberTooLarge
  | notTruth
  | notMoment
  | noSuchMoment
  | notText
  | endless
  deriving DecidableEq, Repr

end Walkthrough.Markup
