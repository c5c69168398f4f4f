import Walkthrough.Number.Double

/-! Sums and products of doubles. Both are exact quotients of units that are rounded once; what has
no finite value follows the rules of the infinities. -/
namespace Walkthrough.Double

def isMinus : Double → Bool
  | nan => false
  | ranked negative _ => negative

/-- The number with the other sign. -/
def negate : Double → Double
  | nan => nan
  | ranked negative rank => .ranked (!negative) rank

/-- A sum that is zero is negative only if both parts are. -/
def add (a b : Double) : Double :=
  if a.isNaN || b.isNaN then nan
  else if a.isInfinite then
    if b.isInfinite && a.isMinus != b.isMinus then nan else a
  else if b.isInfinite then b
  else
    let units := a.units + b.units
    if units == 0 then zero (a.isMinus && b.isMinus)
    else ofRatio (units < 0) units.natAbs unitsInOne

/-- Zero times infinity is not a number. -/
def mul (a b : Double) : Double :=
  let negative := a.isMinus != b.isMinus
  if a.isNaN || b.isNaN then nan
  else if a.isInfinite || b.isInfinite then
    if a.isZero || b.isZero then nan else infinity negative
  else ofRatio negative (a.units.natAbs * b.units.natAbs) (unitsInOne * unitsInOne)

end Walkthrough.Double
