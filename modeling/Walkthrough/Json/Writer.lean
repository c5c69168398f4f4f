import Walkthrough.Text.Hex
import Walkthrough.Value.Conversion

/-! JSON text of a value without any space. Two styles differ in the characters they escape: the
first only what JSON demands, the second everything outside printable ASCII. Numbers that JSON has
no form for are written by name. Dates, moments and missing values have no JSON form at all, and a
whole number with too many digits is not written. -/
namespace Walkthrough.Json

inductive Style where
  | unicode
  | ascii
  deriving DecidableEq, Repr

/-- One or two groups of four digits: a character beyond 16 bits is a surrogate pair. -/
def escaped (c : Char) : List Char :=
  let n := c.toNat
  let unit (u : Nat) : List Char := '\\' :: 'u' :: Text.hex 4 u
  if n < 0x10000 then unit n
  else unit (0xD800 + (n - 0x10000) / 1024) ++ unit (0xDC00 + (n - 0x10000) % 1024)

def writeChar (style : Style) (c : Char) : List Char :=
  if c == '"' || c == '\\' then ['\\', c]
  else if c == '\n' then ['\\', 'n']
  else if c == '\r' then ['\\', 'r']
  else if c == '\t' then ['\\', 't']
  else if c == '\x08' then ['\\', 'b']
  else if c == '\x0c' then ['\\', 'f']
  else if c.toNat < 32 || (style == .ascii && 126 < c.toNat) then escaped c
  else [c]

def writeText (style : Style) (s : String) : String :=
  String.ofList ('"' :: s.toList.flatMap (writeChar style) ++ ['"'])

def numberText (n : Number) : String :=
  if n.isFinite then n.exactText else n.plainText

def scalarText (style : Style) : Scalar → Except Escape String
  | .null => .ok "null"
  | .bool b => .ok (if b then "true" else "false")
  | .number n => (n.written numberText).mapError .fault
  | .text s => .ok (writeText style s)
  | .missing | .date _ | .instant _ => .error (.shape .wrongKind)

/-- Keys are text; a scalar key is written as text of its JSON form. -/
def keyText (style : Style) : Scalar → Except Escape String
  | .text s => .ok (writeText style s)
  | s => (scalarText style s).map (writeText style)

mutual

def write {ι : Type} (style : Style) : Value ι → Except Escape String
  | .atom s => scalarText style s
  | .list _ items => (writeItems style items).map fun parts => "[" ++ ",".intercalate parts ++ "]"
  | .map _ entries =>
    (writeEntries style entries).map fun parts => "\x7b" ++ ",".intercalate parts ++ "\x7d"

def writeItems {ι : Type} (style : Style) : List (Value ι) → Except Escape (List String)
  | [] => .ok []
  | v :: rest => do
    let first ← write style v
    let others ← writeItems style rest
    return first :: others

def writeEntries {ι : Type} (style : Style) : List (Scalar × Value ι) → Except Escape (List String)
  | [] => .ok []
  | (k, v) :: rest => do
    let key ← keyText style k
    let value ← write style v
    let others ← writeEntries style rest
    return (key ++ ":" ++ value) :: others

end

end Walkthrough.Json
