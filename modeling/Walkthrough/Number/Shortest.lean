import Walkthrough.Number.Double

/-! Shortest decimals. Among the decimals that round to a given double, the one written has the
fewest significant digits and of those lies nearest; a tie goes to the even digit. The bounds are
the midpoints to the neighbouring ranks and belong to the interval when the rank is even. All
comparisons are between whole numbers. -/
namespace Walkthrough

/-- The number `digits * 10 ^ exponent`. -/
structure Decimal where
  digits : Nat
  exponent : Int
  deriving DecidableEq, Repr

namespace Decimal

/-- Drops trailing zeros of the digits, as many as the fuel allows. -/
def dropZeros : Nat → Decimal → Decimal
  | 0, d => d
  | fuel + 1, d =>
    if d.digits != 0 && d.digits % 10 == 0 then dropZeros fuel ⟨d.digits / 10, d.exponent + 1⟩
    else d

/-- The interval of reals that round to one rank, over the denominator 2^1075. -/
structure Interval where
  low : Nat
  value : Nat
  high : Nat
  closed : Bool

def Interval.ofRank (rank : Nat) : Interval where
  low := unitsOfRank (rank - 1) + unitsOfRank rank
  value := 2 * unitsOfRank rank
  high := unitsOfRank rank + unitsOfRank (rank + 1)
  closed := rank % 2 == 0

/-- The decimal exponent of the first digit. -/
def Interval.magnitude (i : Interval) : Int :=
  ((Nat.toDigits 10 (i.value * Nat.pow 10 400 / Nat.pow 2 1075)).length : Int) - 401

/-- Multiples of `10 ^ exponent` next to the value that lie in the interval, the nearer first. -/
def Interval.candidate? (i : Interval) (exponent : Int) : Option Decimal :=
  let up := Nat.pow 10 (-exponent).toNat
  let den := Nat.pow 2 1075 * Nat.pow 10 exponent.toNat
  let inside (n : Nat) : Bool :=
    if i.closed then i.low * up ≤ n * den && n * den ≤ i.high * up
    else i.low * up < n * den && n * den < i.high * up
  let below := i.value * up / den
  let nearest := roundHalfEven (i.value * up) den
  let other := if nearest == below then below + 1 else below
  if inside nearest then some ⟨nearest, exponent⟩
  else if inside other then some ⟨other, exponent⟩
  else none

/-- Tries one more digit at a time; seventeen always suffice. -/
def Interval.search (i : Interval) (first : Int) : Nat → Nat → Decimal
  | 0, _ => ⟨0, 0⟩
  | fuel + 1, count =>
    match i.candidate? (first - count + 1) with
    | some d => dropZeros 20 d
    | none => search i first fuel (count + 1)

/-- The shortest decimal of a positive finite rank. -/
def ofRank (rank : Nat) : Decimal :=
  let i := Interval.ofRank rank
  i.search i.magnitude 17 1

/-- The digits as characters, and the decimal exponent of the first. -/
def spread (d : Decimal) : List Char × Int :=
  let cs := Nat.toDigits 10 d.digits
  (cs, d.exponent + cs.length - 1)

/-- Positional notation without an exponent; a fraction part appears only if needed. -/
def positional (d : Decimal) : List Char :=
  let (cs, first) := d.spread
  if first < 0 then "0.".toList ++ List.replicate (-first - 1).toNat '0' ++ cs
  else
    let whole := first.toNat + 1
    if cs.length ≤ whole then cs ++ List.replicate (whole - cs.length) '0'
    else cs.take whole ++ '.' :: cs.drop whole

/-- Scientific notation; the sign of the exponent is always written and its digits padded to the
given width. -/
def scientific (width : Nat) (d : Decimal) : List Char :=
  let (cs, first) := d.spread
  let mantissa := match cs with
    | [c] => [c]
    | c :: rest => c :: '.' :: rest
    | [] => []
  let power := Nat.toDigits 10 first.natAbs
  mantissa ++ 'e' :: (if first < 0 then '-' else '+') ::
    (List.replicate (width - power.length) '0' ++ power)

end Decimal

namespace Double

/-- The shortest decimal of the magnitude. -/
def shortest : Double → Decimal
  | nan => ⟨0, 0⟩
  | ranked _ rank => if rank.val == 0 then ⟨0, 0⟩ else Decimal.ofRank rank.val

def isNegative : Double → Bool
  | nan => false
  | ranked negative _ => negative

def signed (d : Double) (cs : List Char) : String :=
  String.ofList (if d.isNegative then '-' :: cs else cs)

/-- The exact notation: shortest digits, always with a point or an exponent, positional from 1e-4
up to below 1e16, at least two digits in the exponent. -/
def exactText (d : Double) : String :=
  if d.isNaN then "nan"
  else if d.isInfinite then d.signed "inf".toList
  else
    let (cs, first) := d.shortest.spread
    if -4 ≤ first && first < 16 then
      d.signed (d.shortest.positional ++ if cs.length ≤ first + 1 then ".0".toList else [])
    else d.signed (d.shortest.scientific 2)

/-- The notation shown to people: whole numbers below 1e21 without a point, others positional from
1e-6 up, the exponent unpadded. -/
def plainText (d : Double) : String :=
  if d.isNaN then "NaN"
  else if d.isInfinite then d.signed "Infinity".toList
  else
    let (_, first) := d.shortest.spread
    match d.toInt? with
    | some n => if n.natAbs < Nat.pow 10 21 then toString n else d.signed (d.shortest.scientific 1)
    | none =>
      if -6 ≤ first && first < 21 then d.signed d.shortest.positional
      else d.signed (d.shortest.scientific 1)

end Double

end Walkthrough
