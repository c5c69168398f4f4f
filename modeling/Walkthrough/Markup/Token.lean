import Walkthrough.Markup.Glyph
import Walkthrough.Text.Hex

/-! Tokens of a document, and the texts of those that name something: anchors, tags and
directives. -/
namespace Walkthrough.Markup

/-- What a line that starts with a percent sign says. -/
inductive Directive where
  | version (major : Nat)
  | handle (name lead : String)
  | other
  deriving DecidableEq, Repr

inductive Token where
  | directive (d : Directive)
  | documentStart
  | documentEnd
  | blockSequence
  | blockMapping
  | blockEnd
  | openSequence
  | closeSequence
  | openMapping
  | closeMapping
  /-- The hyphen before an item. -/
  | item
  /-- The comma between parts of a flow collection. -/
  | comma
  | key
  | value
  | alias (name : String)
  | anchor (name : String)
  | tag (handle : Option String) (suffix : String)
  | scalar (text : String) (plain : Bool)
  deriving DecidableEq, Repr

def isAsciiDigit (c : Char) : Bool := '0' ≤ c && c ≤ '9'

def isNameChar (c : Char) : Bool :=
  isAsciiDigit c || ('A' ≤ c && c ≤ 'Z') || ('a' ≤ c && c ≤ 'z') || c == '-' || c == '_'

/-- What may follow the name of an anchor. -/
def endsName (s : Glyphs) : Bool :=
  s.atBlank || s.first?.any fun c =>
    c == '?' || c == ':' || c == ',' || c == ']' || c == '\x7d' || c == '%' || c == '@' ||
      c == '\x60'

/-- The name of an anchor or alias, from behind its sign. -/
def anchorName (s : Glyphs) : Except MarkupError (String × Glyphs) :=
  let (name, rest) := s.span isNameChar
  if name.isEmpty || !endsName rest then .error .malformed else .ok (String.ofList name, rest)

def isUriSign (c : Char) : Bool :=
  c == ';' || c == '/' || c == '?' || c == ':' || c == '@' || c == '&' || c == '=' || c == '+' ||
    c == '$' || c == ',' || c == '.' || c == '!' || c == '~' || c == '*' || c == '\'' ||
    c == '(' || c == ')' || c == '[' || c == ']'

def isUriChar (c : Char) : Bool := isNameChar c || isUriSign c

/-- The bytes of a tag's text; a percent sign and two digits give a byte by its number. -/
def uriBytes : Glyphs → Option (List UInt8 × Glyphs)
  | [] => some ([], [])
  | [g] => if isUriChar g.char then some ([g.char.toUInt8], []) else
      if g.char == '%' then none else some ([], [g])
  | [g, h] =>
    if isUriChar g.char then (uriBytes [h]).map fun (bs, s) => (g.char.toUInt8 :: bs, s)
    else if g.char == '%' then none else some ([], [g, h])
  | g :: a :: b :: rest =>
    if isUriChar g.char then
      (uriBytes (a :: b :: rest)).map fun (bs, s) => (g.char.toUInt8 :: bs, s)
    else if g.char == '%' then do
      let n ← Text.hexNumber? [a.char, b.char]
      let (bs, s) ← uriBytes rest
      return (n.toUInt8 :: bs, s)
    else some ([], g :: a :: b :: rest)

def uri (s : Glyphs) : Except MarkupError (String × Glyphs) :=
  match uriBytes s with
  | some (b :: bs, rest) =>
    match String.fromUTF8? ⟨(b :: bs).toArray⟩ with
    | some text => .ok (text, rest)
    | none => .error .malformed
  | _ => .error .malformed

/-- A handle: an exclamation mark, alone before a space or else with a name and a second mark. -/
def tagHandle (s : Glyphs) : Except MarkupError (String × Glyphs) :=
  let rest := s.skip 1
  if !s.startsWith '!' then .error .malformed
  else if rest.startsWith ' ' then .ok ("!", rest)
  else
    let (name, after) := rest.span isNameChar
    if after.startsWith '!' then
      .ok ("!" ++ String.ofList name ++ "!", after.skip 1)
    else .error .malformed

/-- A tag, from its exclamation mark. -/
def tagToken (s : Glyphs) : Except MarkupError (Token × Glyphs) := do
  let rest := s.skip 1
  let (t, after) ←
    if rest.startsWith '<' then do
      let (suffix, after) ← uri (rest.skip 1)
      if after.startsWith '>' then pure (Token.tag none suffix, after.skip 1)
      else throw .malformed
    else if rest.atBlank then pure (Token.tag none "!", rest)
    else do
      let word := (rest.span fun c => !(c == ' ' || isBreak c)).1
      let (handle, after) ← if word.contains '!' then tagHandle s else pure ("!", rest)
      let (suffix, after) ← uri after
      pure (Token.tag (some handle) suffix, after)
  if after.atGap then return (t, after) else throw .malformed

def number (s : Glyphs) : Except MarkupError (Nat × Glyphs) :=
  let (digits, rest) := s.span isAsciiDigit
  if digits.isEmpty then .error .malformed
  else .ok (digits.foldl (fun n c => n * 10 + (c.toNat - 48)) 0, rest)

def versionDirective (s : Glyphs) : Except MarkupError (Directive × Glyphs) := do
  let (major, rest) ← number s.dropSpaces
  if !rest.startsWith '.' then throw .malformed
  let (_, rest) ← number (rest.skip 1)
  if rest.atGap then return (.version major, rest) else throw .malformed

def handleDirective (s : Glyphs) : Except MarkupError (Directive × Glyphs) := do
  let (name, rest) ← tagHandle s.dropSpaces
  if !rest.startsWith ' ' then throw .malformed
  let (lead, rest) ← uri rest.dropSpaces
  if rest.atGap then return (.handle name lead, rest) else throw .malformed

/-- A directive, from behind its percent sign, to the end of the line. -/
def directiveToken (s : Glyphs) : Except MarkupError (Token × Glyphs) := do
  let (name, rest) := s.span isNameChar
  if name.isEmpty || !rest.atGap then throw .malformed
  let (d, rest) ←
    if name == "YAML".toList then versionDirective rest
    else if name == "TAG".toList then handleDirective rest
    else pure (.other, rest.dropLine)
  match rest.endLine? with
  | some rest => return (.directive d, rest)
  | none => throw .malformed

end Walkthrough.Markup
