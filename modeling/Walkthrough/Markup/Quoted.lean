import Walkthrough.Markup.Glyph
import Walkthrough.Text.Hex
import Walkthrough.Text.Surrogate

/-! Quoted scalars. A line break inside becomes a space, blank lines after it stay as breaks, and
blanks around it vanish. In single quotes only a quote is special, and is written twice; double
quotes have escapes. -/
namespace Walkthrough.Markup

/-- The breaks of blank lines from the start of a line, and the text behind their blanks. No
document may begin or end inside a quoted scalar. -/
def quotedBreaks : Glyphs → Except MarkupError (List Char × Glyphs)
  | [] => .ok ([], [])
  | g :: rest =>
    if g.column == 0 && Glyphs.separates (g :: rest) then .error .malformed
    else if isSpace g.char then quotedBreaks rest
    else if isBreak g.char then (quotedBreaks rest).map fun (breaks, s) => (g.char :: breaks, s)
    else .ok ([], g :: rest)

/-- The text that a line break and the blank lines after it stand for. -/
def folded (lineBreak : Char) (breaks : List Char) : List Char :=
  if lineBreak != '\n' then lineBreak :: breaks
  else if breaks.isEmpty then [' '] else breaks

/-- Blanks inside a quoted scalar, with a line break among them or not. -/
def quotedGap (s : Glyphs) : Except MarkupError (List Char × Glyphs) := do
  let (blanks, rest) := s.span isSpace
  match rest with
  | [] => .error .malformed
  | g :: more =>
    if isBreak g.char then
      let (breaks, tail) ← quotedBreaks more
      return (folded g.char breaks, tail)
    else return (blanks, rest)

/-- Characters that an escape of one letter stands for. -/
def escapes : List (Char × Char) := [
  ('0', '\x00'), ('a', '\x07'), ('b', '\x08'), ('t', '\t'), ('\t', '\t'), ('n', '\n'),
  ('v', '\x0b'), ('f', '\x0c'), ('r', '\r'), ('e', '\x1b'), (' ', ' '), ('"', '"'), ('\\', '\\'),
  ('/', '/'), ('N', '\u0085'), ('_', '\u00a0'), ('L', '\u2028'), ('P', '\u2029')]

/-- How many hexadecimal digits follow an escape letter. -/
def escapeWidth? (c : Char) : Option Nat :=
  if c == 'x' then some 2
  else if c == 'u' then some 4
  else if c == 'U' then some 8
  else none

/-- The number that so many hexadecimal digits spell. -/
def hexDigits? (width : Nat) (s : Glyphs) : Option Nat :=
  let digits := s.taken width
  if digits.length == width then Text.hexNumber? digits else none

/-- The low half that an escape of its own gives to a high half in front of it. -/
def lowHalf? (s : Glyphs) : Option Nat :=
  if s.taken 2 == ['\\', 'u'] then (hexDigits? 4 (s.skip 2)).filter Text.isLowHalf else none

/-- The text of an escape, from behind the backslash. -/
def escape : Glyphs → Except MarkupError (List Char × Glyphs)
  | [] => .error .malformed
  | g :: rest =>
    match escapes.lookup g.char, escapeWidth? g.char with
    | some c, _ => .ok ([c], rest)
    | none, some width =>
      match hexDigits? width rest with
      | none => .error .malformed
      | some n =>
        let after := Glyphs.skip width rest
        if 0x110000 ≤ n then .error .noSuchCharacter
        else
          match (lowHalf? after).filter fun _ => Text.isHighHalf n with
          | some low => .ok ([Text.joinHalves n low], after.skip 6)
          | none => .ok ([Text.unitChar n], after)
    | none, none => if isBreak g.char then quotedBreaks rest else .error .malformed

def isQuotedGap (c : Char) : Bool := isSpace c || isBreak c

/-- The text up to the closing quote. Every step shortens what is left. -/
def quotedWithin (double : Bool) : Nat → Glyphs → Except MarkupError (List Char × Glyphs)
  | 0, _ => .error .malformed
  | _, [] => .error .malformed
  | fuel + 1, g :: rest => do
    let more (text : List Char) (s : Glyphs) : Except MarkupError (List Char × Glyphs) :=
      (quotedWithin double fuel s).map fun (cs, tail) => (text ++ cs, tail)
    if isQuotedGap g.char then
      let (text, s) ← quotedGap (g :: rest)
      more text s
    else if double && g.char == '\\' then
      let (text, s) ← escape rest
      more text s
    else if double && g.char == '"' then return ([], rest)
    else if !double && g.char == '\'' then
      if Glyphs.startsWith rest '\'' then more ['\''] (Glyphs.skip 1 rest) else return ([], rest)
    else more [g.char] rest

/-- A quoted scalar of a document with so many glyphs, from behind the opening quote. -/
def quotedScalar (double : Bool) (size : Nat) (s : Glyphs) : Except MarkupError (String × Glyphs) :=
  (quotedWithin double size s).map fun (cs, tail) => (String.ofList cs, tail)

end Walkthrough.Markup
