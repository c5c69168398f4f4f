/-! Floating-point numbers of 64 bits as exact objects. A magnitude is its rank: the place it takes
among the magnitudes in increasing order, infinity last. Every finite magnitude is a whole number
of units of 2^-1074, so order and rounding are statements about whole numbers and no operation of
the machine is involved. -/
namespace Walkthrough

/-- The count of ranks between a power of two and the next. -/
def binade : Nat := Nat.pow 2 52

/-- The count of units of 2^-1074 in one. -/
def unitsInOne : Nat := Nat.pow 2 1074

/-- The rank of infinity. -/
def topRank : Nat := 2047 * binade

inductive Double where
  | nan
  | ranked (negative : Bool) (rank : Fin (topRank + 1))
  deriving DecidableEq, Repr

/-- The magnitude of a rank in units of 2^-1074; the top rank stands for 2^1024. -/
def unitsOfRank (rank : Nat) : Nat :=
  if rank < binade then rank else (binade + rank % binade) * Nat.pow 2 (rank / binade - 1)

/-- A quotient to the nearest whole number, a half to the even one. -/
def roundHalfEven (num den : Nat) : Nat :=
  let q := num / den
  let twice := 2 * (num % den)
  if twice < den then q
  else if den < twice then q + 1
  else if q % 2 == 0 then q else q + 1

/-- The rank nearest to a quotient of units, a half going to the even rank. The significand kept
has 53 bits; when rounding carries it to 2^53 the sum is the next binade's first rank. -/
def rankOfUnits (num den : Nat) : Nat :=
  let spare := (num / den).log2 - 52
  min topRank (roundHalfEven num (den * Nat.pow 2 spare) + spare * binade)

namespace Double

def ofRank (negative : Bool) (rank : Nat) : Double :=
  .ranked negative ⟨min topRank rank, Nat.lt_succ_of_le (Nat.min_le_left _ _)⟩

def zero (negative : Bool) : Double := ofRank negative 0
def infinity (negative : Bool) : Double := ofRank negative topRank

/-- The nearest number to a quotient. -/
def ofRatio (negative : Bool) (num den : Nat) : Double :=
  ofRank negative (rankOfUnits (num * unitsInOne) den)

def ofInt (n : Int) : Double := ofRatio (n < 0) n.natAbs 1

/-- The nearest number to `digits * 10 ^ exponent`. Exponents far outside the range are settled by
the count of digits alone. -/
def ofDecimal (negative : Bool) (digits : Nat) (exponent : Int) : Double :=
  let size : Int := (Nat.toDigits 10 digits).length + exponent
  if digits == 0 || size < -400 then zero negative
  else if 400 < size then infinity negative
  else if 0 ≤ exponent then ofRatio negative (digits * Nat.pow 10 exponent.toNat) 1
  else ofRatio negative digits (Nat.pow 10 (-exponent).toNat)

def isNaN : Double → Bool
  | nan => true
  | ranked .. => false

def isInfinite : Double → Bool
  | nan => false
  | ranked _ rank => rank.val == topRank

def isFinite (d : Double) : Bool := !d.isNaN && !d.isInfinite

def isZero : Double → Bool
  | nan => false
  | ranked _ rank => rank.val == 0

/-- The value in units of 2^-1074; infinities stand at ±2^1024 and the rest of the order keeps
them apart. -/
def units : Double → Int
  | nan => 0
  | ranked true rank => -(unitsOfRank rank.val : Int)
  | ranked false rank => unitsOfRank rank.val

/-- The whole number that a finite value is, when it is one. -/
def toInt? (d : Double) : Option Int :=
  if d.isFinite && d.units % unitsInOne == 0 then some (d.units / unitsInOne) else none

/-- The product with a whole number, rounded once. -/
def scale (d : Double) (factor : Nat) : Double :=
  match d with
  | nan => nan
  | ranked negative rank =>
    if rank.val == topRank then d else ofRatio negative (unitsOfRank rank.val * factor) unitsInOne

end Double

/-- A whole number too large for a double: it rounds to 2^1024 or beyond. -/
def overflowsDouble (n : Int) : Bool := (Double.ofInt n).isInfinite

end Walkthrough
