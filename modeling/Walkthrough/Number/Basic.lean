import Walkthrough.Number.Limit
import Walkthrough.Number.Shortest

/-! Numbers of the value model: whole numbers of any size and doubles. They stay apart as values
but compare by exact magnitude: a whole number is never rounded to a double first. -/
namespace Walkthrough

inductive Number where
  | int (n : Int)
  | double (d : Double)
  deriving DecidableEq, Repr

/-- A place on the number line: the tier separates the infinities from all finite numbers, which
are counted in units of 2^-1074. -/
structure Position where
  tier : Int
  units : Int
  deriving DecidableEq, Repr

def Position.order (a b : Position) : Ordering :=
  (compare a.tier b.tier).then (compare a.units b.units)

namespace Number

def nan : Number := .double .nan
def zero : Number := .int 0
def one : Number := .int 1
def ofBool (b : Bool) : Number := .int (if b then 1 else 0)

/-- Not a number has no place. -/
def position? : Number → Option Position
  | .int n => some ⟨0, n * unitsInOne⟩
  | .double d =>
    if d.isNaN then none
    else if d.isInfinite then some ⟨if d.isNegative then -1 else 1, 0⟩
    else some ⟨0, d.units⟩

/-- Numeric equality; not a number differs from everything. -/
def equals (a b : Number) : Bool :=
  match a.position?, b.position? with
  | some p, some q => p == q
  | _, _ => false

/-- The order of two numbers, unless one is not a number. -/
def order? (a b : Number) : Option Ordering :=
  match a.position?, b.position? with
  | some p, some q => some (p.order q)
  | _, _ => none

def isNaN (n : Number) : Bool := n.position?.isNone

/-- A whole number that no double can hold. -/
def overflows : Number → Bool
  | .int n => overflowsDouble n
  | .double _ => false

def isFinite : Number → Bool
  | .int _ => true
  | .double d => d.isFinite

/-- The largest whole number that is not greater, if there is one. -/
def floor? : Number → Option Int
  | .int n => some n
  | .double d => if d.isFinite then some (d.units / unitsInOne) else none

/-- The smallest whole number that is not less, if there is one. -/
def ceil? : Number → Option Int
  | .int n => some n
  | .double d => if d.isFinite then some (-(-d.units / unitsInOne)) else none

/-- The notation shown to people. -/
def plainText : Number → String
  | .int n => toString n
  | .double d => d.plainText

/-- The notation that tells the kinds apart and reads back. -/
def exactText : Number → String
  | .int n => toString n
  | .double d => d.exactText

/-- The count of decimal digits of a whole number; a double is not counted. -/
def digits : Number → Nat
  | .int n => (Nat.toDigits 10 n.natAbs).length
  | .double _ => 0

/-- A notation of a number, unless it takes too many digits. -/
def written (n : Number) (notation_ : Number → String) : Except Fault String :=
  unlessTooMany n.digits (notation_ n)

theorem written_eq_ok {n : Number} {notation_ : Number → String} {s : String} :
    n.written notation_ = .ok s ↔ n.digits ≤ digitLimit ∧ notation_ n = s :=
  unlessTooMany_eq_ok

theorem written_eq_error {n : Number} {notation_ : Number → String} {f : Fault} :
    n.written notation_ = .error f ↔ digitLimit < n.digits ∧ f = .tooManyDigits :=
  unlessTooMany_eq_error

end Number

end Walkthrough
