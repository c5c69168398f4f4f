import Walkthrough.Text.Hex
import Walkthrough.Text.Printable

/-! Text in quotes, as the log shows it: single quotes, unless the text holds one and no double
quote. The quote and the backslash are escaped, and what is not printable is written by number.
Bytes are quoted as ASCII text, behind a letter of their own. -/
namespace Walkthrough.Text

def quoteFor (cs : List Char) : Char :=
  if cs.contains '\'' && !cs.contains '"' then '"' else '\''

def quotedChar (quote c : Char) : List Char :=
  if c == quote || c == '\\' then ['\\', c]
  else if c == '\n' then ['\\', 'n']
  else if c == '\r' then ['\\', 'r']
  else if c == '\t' then ['\\', 't']
  else if isPrintable c then [c]
  else if c.toNat < 0x100 then '\\' :: 'x' :: hex 2 c.toNat
  else if c.toNat < 0x10000 then '\\' :: 'u' :: hex 4 c.toNat
  else '\\' :: 'U' :: hex 8 c.toNat

def quoted (s : String) : String :=
  let cs := s.toList
  let quote := quoteFor cs
  String.ofList (quote :: cs.flatMap (quotedChar quote) ++ [quote])

def quotedByte (quote : Char) (b : UInt8) : List Char :=
  if b < 128 then quotedChar quote (Char.ofNat b.toNat) else '\\' :: 'x' :: hex 2 b.toNat

def quotedBytes (bs : List UInt8) : String :=
  let quote := quoteFor (bs.map fun b => Char.ofNat b.toNat)
  String.ofList ('b' :: quote :: bs.flatMap (quotedByte quote) ++ [quote])

end Walkthrough.Text
