import Walkthrough.Number.Basic
import Walkthrough.Text.Blank
import Walkthrough.Text.Digit

/-! Reading of numbers. A numeral is a sign, then digits with an optional point and exponent, or
the word Infinity; or, unsigned, a radix letter behind a zero and digits of that base, of base two
also with this sign twice. Decimal digits may come from any script, radix digits are ASCII. Digits
alone give a whole number, all other decimal forms a double. Decimal digits of a whole number are
limited. -/
namespace Walkthrough.Numeral

open Text

/-- Values of the leading decimal digits, and what follows them. -/
def digitRun : List Char → List Nat × List Char
  | [] => ([], [])
  | c :: cs =>
    match digitValue? c with
    | some d => ((d :: (digitRun cs).1), (digitRun cs).2)
    | none => ([], c :: cs)

def natOfDigits (base : Nat) (ds : List Nat) : Nat := ds.foldl (fun n d => n * base + d) 0

/-- The sign in front, if any: true for minus. -/
def splitSign : List Char → Bool × List Char
  | '+' :: cs => (false, cs)
  | '-' :: cs => (true, cs)
  | cs => (false, cs)

def signedInt (negative : Bool) (n : Nat) : Int := if negative then -(n : Int) else n

/-- The exponent part, which must reach the end: nothing, or `e`, a sign and digits. -/
def exponent? : List Char → Option Int
  | [] => some 0
  | c :: cs =>
    if c == 'e' || c == 'E' then
      let (negative, body) := splitSign cs
      match digitRun body with
      | ([], _) => none
      | (ds, []) => some (signedInt negative (natOfDigits 10 ds))
      | (_, _ :: _) => none
    else none

/-- What follows the whole digits: end, or a point, a fraction and an exponent. -/
def unsigned? (negative : Bool) (cs : List Char) : Option Number :=
  match digitRun cs with
  | ([], '.' :: rest) =>
    match digitRun rest with
    | ([], _) => none
    | (frac, tail) =>
      (exponent? tail).map fun e =>
        .double (Double.ofDecimal negative (natOfDigits 10 frac) (e - frac.length))
  | ([], _) => none
  | (whole, []) => some (.int (signedInt negative (natOfDigits 10 whole)))
  | (whole, '.' :: rest) =>
    let (frac, tail) := digitRun rest
    (exponent? tail).map fun e =>
      .double (Double.ofDecimal negative (natOfDigits 10 (whole ++ frac)) (e - frac.length))
  | (whole, tail) =>
    (exponent? tail).map fun e => .double (Double.ofDecimal negative (natOfDigits 10 whole) e)

def infinityWord : List Char := "Infinity".toList

def decimal? (cs : List Char) : Option Number :=
  let (negative, body) := splitSign cs
  if body = infinityWord then some (.double (.infinity negative)) else unsigned? negative body

/-- The value of an ASCII digit in a base up to sixteen. -/
def radixDigit? (base : Nat) (c : Char) : Option Nat :=
  let n := c.toNat
  let d :=
    if 48 ≤ n && n ≤ 57 then n - 48
    else if 97 ≤ n && n ≤ 102 then n - 87
    else if 65 ≤ n && n ≤ 70 then n - 55
    else 16
  if d < base then some d else none

def radixBase? (c : Char) : Option Nat :=
  if c == 'x' || c == 'X' then some 16
  else if c == 'o' || c == 'O' then some 8
  else if c == 'b' || c == 'B' then some 2
  else none

/-- Without the sign of a base in front, if it is there. -/
def dropRadix (base : Nat) (cs : List Char) : List Char :=
  match cs with
  | '0' :: c :: rest => if base != 10 && radixBase? c == some base then rest else cs
  | _ => cs

/-- The number that hexadecimal digits spell in a base. The letter of base two is one of them, so
the sign of that base may stand before its digits once more. -/
def radixDigits? (base : Nat) (cs : List Char) : Option Number :=
  if cs.all fun c => (radixDigit? 16 c).isSome then
    match (dropRadix base cs).mapM (radixDigit? base) with
    | some (d :: ds) => some (.int (natOfDigits base (d :: ds)))
    | _ => none
  else none

/-- A numeral without surrounding space. -/
def body? : List Char → Option Number
  | '0' :: c :: cs =>
    match radixBase? c with
    | some base => radixDigits? base cs
    | none => decimal? ('0' :: c :: cs)
  | cs => decimal? cs

/-- The number that a text spells, space around it aside; empty text spells none. -/
def spelled? (cs : List Char) : Option Number := body? (trim cs)

/-- A text that spells a whole number with too many digits. -/
def tooLong (cs : List Char) : Bool :=
  match digitRun (splitSign (trim cs)).2 with
  | (ds, []) => digitLimit < ds.length
  | (_, _ :: _) => false

/-- Reads the number that a text spells, if it spells one. -/
def parse? (cs : List Char) : Except Fault (Option Number) :=
  if tooLong cs then .error .tooManyDigits else .ok (spelled? cs)

/-- Reads the whole number at the start of a text, space before it aside. -/
def intPrefix? (cs : List Char) : Except Fault (Option Int) :=
  let (negative, body) := splitSign (cs.dropWhile isBlank)
  match (digitRun body).1 with
  | [] => .ok none
  | ds => unlessTooMany ds.length (some (signedInt negative (natOfDigits 10 ds)))

/-- Digits in groups that single underscores separate. -/
def groupedDigits : List Char → Option (List Nat)
  | [] => none
  | [c] => (digitValue? c).map fun d => [d]
  | c :: next :: cs =>
    match digitValue? c with
    | none => none
    | some d =>
      if next == '_' then (groupedDigits cs).map (d :: ·)
      else (groupedDigits (next :: cs)).map (d :: ·)

/-- White space without the four information separators. -/
def isOuterSpace (c : Char) : Bool := isBlank c && !(28 ≤ c.toNat && c.toNat ≤ 31)

/-- A whole number as a setting spells it: space around it, a sign, and grouped digits. -/
def setting? (cs : List Char) : Option Int :=
  let (negative, body) := splitSign (trimWhere isOuterSpace cs)
  ((groupedDigits body).filter (·.length ≤ digitLimit)).map fun ds =>
    signedInt negative (natOfDigits 10 ds)

/-- The value of a digit in a base up to sixteen: a decimal digit of any script, or a letter. -/
def anyDigit? (base : Nat) (c : Char) : Option Nat :=
  ((digitValue? c).orElse fun _ => radixDigit? 16 c).filter (· < base)

/-- A whole number in a base: space around it, a sign, the sign of the base, and digits. -/
def inBase? (base : Nat) (cs : List Char) : Option Int :=
  let (negative, body) := splitSign (trimWhere isOuterSpace cs)
  match (dropRadix base body).mapM (anyDigit? base) with
  | some (d :: ds) =>
    if base == 10 && digitLimit < ds.length + 1 then none
    else some (signedInt negative (natOfDigits base (d :: ds)))
  | _ => none

def infinityNames : List (List Char) := ["inf".toList, "infinity".toList]

/-- A double with space around it: a decimal, or the name of a value that has no digits. -/
def double? (cs : List Char) : Option Double :=
  let (negative, body) := splitSign (trimWhere isOuterSpace cs)
  if infinityNames.contains body then some (.infinity negative)
  else if body = "nan".toList then some .nan
  else
    match unsigned? negative body with
    | some (.int n) => some (.ofRatio negative n.natAbs 1)
    | some (.double d) => some d
    | none => none

end Walkthrough.Numeral
