import Walkthrough.Calendar.Date
import Walkthrough.Number.Double

/-! Points in time: a date, a time of day to the microsecond and, as a rule, an offset from
universal time in seconds. Without an offset the clock reading is taken as universal time when a
number is needed, but equals no reading that has one. -/
namespace Walkthrough

structure Instant where
  date : Date
  hour : Nat
  minute : Nat
  second : Nat
  micro : Nat
  offset : Option Int
  deriving DecidableEq, Repr

namespace Instant

def isValid (t : Instant) : Bool :=
  t.date.isValid && t.hour < 24 && t.minute < 60 && t.second < 60 && t.micro < 1000000 &&
    (t.offset.getD 0).natAbs < 86400

/-- Microseconds since 1970-01-01T00:00:00 in universal time. -/
def epochMicros (t : Instant) : Int :=
  (t.date.dayNumber * 86400 + (t.hour * 3600 + t.minute * 60 + t.second : Nat) -
    t.offset.getD 0) * 1000000 + t.micro

/-- Milliseconds since 1970: the seconds as a double, then the product as a double. -/
def epochMillis (t : Instant) : Double :=
  (Double.ofRatio (t.epochMicros < 0) t.epochMicros.natAbs 1000000).scale 1000

/-- The same point in time; readings without an offset compare among themselves. -/
def same (a b : Instant) : Bool :=
  a.offset.isSome == b.offset.isSome && a.epochMicros == b.epochMicros

def offsetText (seconds : Int) : String :=
  let n := seconds.natAbs
  (if seconds < 0 then "-" else "+") ++ padded 2 (n / 3600) ++ ":" ++ padded 2 (n / 60 % 60) ++
    (if n % 60 == 0 then "" else ":" ++ padded 2 (n % 60))

/-- Date and time with the given text between them; microseconds only when there are some. -/
def text (between : String) (t : Instant) : String :=
  t.date.isoText ++ between ++ padded 2 t.hour ++ ":" ++ padded 2 t.minute ++ ":" ++
    padded 2 t.second ++ (if t.micro == 0 then "" else "." ++ padded 6 t.micro) ++
    (match t.offset with
    | some seconds => offsetText seconds
    | none => "")

def isoText (t : Instant) : String := t.text "T"

end Instant

end Walkthrough
