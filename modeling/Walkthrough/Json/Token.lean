import Walkthrough.Number.Numeral
import Walkthrough.Text.Hex
import Walkthrough.Text.Surrogate
import Walkthrough.Value.Basic

/-! Tokens of JSON text. Strings may not hold raw control characters; a number is a whole number
unless it has a fraction or an exponent, and then its digits are limited; the names NaN, Infinity and
-Infinity are numbers. -/
namespace Walkthrough.Json

inductive Token where
  | openList
  | closeList
  | openMap
  | closeMap
  | comma
  | colon
  | text (s : String)
  | scalar (s : Scalar)
  deriving DecidableEq, Repr

def isSpace (c : Char) : Bool := c == ' ' || c == '\t' || c == '\n' || c == '\r'

def isDigit (c : Char) : Bool := '0' ≤ c && c ≤ '9'

def simpleEscape? (c : Char) : Option Char :=
  if c == '"' || c == '\\' || c == '/' then some c
  else if c == 'b' then some '\x08'
  else if c == 'f' then some '\x0c'
  else if c == 'n' then some '\n'
  else if c == 'r' then some '\r'
  else if c == 't' then some '\t'
  else none

/-- The 16-bit unit at the start of the text. -/
def unit? : List Char → Option Nat
  | a :: b :: c :: d :: _ => Text.hexNumber? [a, b, c, d]
  | _ => none

/-- The characters up to the closing quote, and what follows it. A pending high surrogate waits for
its other half. -/
def string? : List Char → Option (List Char × List Char)
  | [] => none
  | '"' :: rest => some ([], rest)
  | '\\' :: 'u' :: a :: b :: c :: d :: '\\' :: 'u' :: e :: f :: g :: h :: rest => do
    let high ← Text.hexNumber? [a, b, c, d]
    if Text.isHighHalf high then
      match Text.hexNumber? [e, f, g, h] with
      | some low =>
        if Text.isLowHalf low then
          let (cs, tail) ← string? rest
          return (Text.joinHalves high low :: cs, tail)
        else
          let (cs, tail) ← string? ('\\' :: 'u' :: e :: f :: g :: h :: rest)
          return (Text.unitChar high :: cs, tail)
      | none => none
    else
      let (cs, tail) ← string? ('\\' :: 'u' :: e :: f :: g :: h :: rest)
      return (Text.unitChar high :: cs, tail)
  | '\\' :: 'u' :: a :: b :: c :: d :: rest => do
    let n ← Text.hexNumber? [a, b, c, d]
    let (cs, tail) ← string? rest
    return (Text.unitChar n :: cs, tail)
  | '\\' :: c :: rest => do
    let e ← simpleEscape? c
    let (cs, tail) ← string? rest
    return (e :: cs, tail)
  | c :: rest => do
    if c.toNat < 32 || c == '\\' then none
    else
      let (cs, tail) ← string? rest
      return (c :: cs, tail)

/-- Digits behind an exponent letter and an optional sign. -/
def exponentDigits (cs : List Char) : Option (List Char × List Char) :=
  match cs with
  | c :: rest =>
    if c == 'e' || c == 'E' then
      let (sign, body) := match rest with
        | '+' :: more => (['+'], more)
        | '-' :: more => (['-'], more)
        | _ => ([], rest)
      let ds := body.takeWhile isDigit
      if ds.isEmpty then none else some ('e' :: sign ++ ds, body.dropWhile isDigit)
    else none
  | [] => none

def fractionDigits (cs : List Char) : Option (List Char × List Char) :=
  match cs with
  | '.' :: rest =>
    let ds := rest.takeWhile isDigit
    if ds.isEmpty then none else some ('.' :: ds, rest.dropWhile isDigit)
  | _ => none

/-- The number at the start of the text, and what follows it. -/
def number? (cs : List Char) : Option (Number × List Char) :=
  let (negative, body) := match cs with
    | '-' :: rest => (true, rest)
    | _ => (false, cs)
  let whole := match body with
    | '0' :: _ => ['0']
    | _ => body.takeWhile isDigit
  if whole.isEmpty then none
  else
    let rest := body.drop whole.length
    let (fraction, rest) := (fractionDigits rest).getD ([], rest)
    let (power, rest) := (exponentDigits rest).getD ([], rest)
    (Numeral.unsigned? negative (whole ++ fraction ++ power)).map (·, rest)

/-- A whole number with too many digits stands at the start of the text. -/
def startsTooLong (cs : List Char) : Bool :=
  let body := match cs with
    | '-' :: rest => rest
    | _ => cs
  let ds := body.takeWhile isDigit
  let rest := body.dropWhile isDigit
  digitLimit < ds.length && ds.head? != some '0' && (fractionDigits rest).isNone &&
    (exponentDigits rest).isNone

/-- Removes a word from the start of the text. -/
def after? (word : List Char) (cs : List Char) : Option (List Char) :=
  if cs.take word.length = word then some (cs.drop word.length) else none

def names : List (String × Scalar) := [
  ("null", .null), ("true", .bool true), ("false", .bool false),
  ("NaN", .number .nan), ("Infinity", .number (.double (.infinity false))),
  ("-Infinity", .number (.double (.infinity true)))]

/-- The token at the start of a text that begins with no space. -/
def token? : List Char → Option (Token × List Char)
  | [] => none
  | '[' :: rest => some (.openList, rest)
  | ']' :: rest => some (.closeList, rest)
  | '{' :: rest => some (.openMap, rest)
  | '}' :: rest => some (.closeMap, rest)
  | ',' :: rest => some (.comma, rest)
  | ':' :: rest => some (.colon, rest)
  | '"' :: rest => (string? rest).map fun (cs, tail) => (.text (String.ofList cs), tail)
  | cs =>
    match names.findSome? fun (name, s) => (after? name.toList cs).map (s, ·) with
    | some (s, rest) => some (.scalar s, rest)
    | none =>
      if startsTooLong cs then none
      else (number? cs).map fun (n, rest) => (.scalar (.number n), rest)

/-- All tokens; every one shortens the text, so its length is fuel enough. -/
def tokensWithin : Nat → List Char → Option (List Token)
  | 0, cs => if cs.isEmpty then some [] else none
  | fuel + 1, cs =>
    match cs.dropWhile isSpace with
    | [] => some []
    | rest => do
      let (t, tail) ← token? rest
      let ts ← tokensWithin fuel tail
      return t :: ts

def tokens? (cs : List Char) : Option (List Token) := tokensWithin cs.length cs

/-- The tokens up to the first thing that is none, and the text from there on. -/
def frontWithin : Nat → List Char → List Token × List Char
  | 0, cs => ([], cs)
  | fuel + 1, cs =>
    let rest := cs.dropWhile isSpace
    match token? rest with
    | none => ([], rest)
    | some (t, tail) =>
      let (ts, stop) := frontWithin fuel tail
      (t :: ts, stop)

def front (cs : List Char) : List Token × List Char := frontWithin (cs.length + 1) cs

end Walkthrough.Json
