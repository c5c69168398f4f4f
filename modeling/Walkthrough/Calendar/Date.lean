/-! Dates of the Gregorian calendar, years 1 to 9999. -/
namespace Walkthrough

structure Date where
  year : Nat
  month : Nat
  day : Nat
  deriving DecidableEq, Repr

namespace Date

def isLeap (year : Nat) : Bool := year % 4 == 0 && (year % 100 != 0 || year % 400 == 0)

def monthLength (year month : Nat) : Nat :=
  if month == 2 then (if isLeap year then 29 else 28)
  else if month == 4 || month == 6 || month == 9 || month == 11 then 30
  else 31

def isValid (d : Date) : Bool :=
  1 ≤ d.year && d.year ≤ 9999 && 1 ≤ d.month && d.month ≤ 12 && 1 ≤ d.day &&
    d.day ≤ monthLength d.year d.month

/-- Days of the year before the month begins. -/
def daysBeforeMonth (year : Nat) : Nat → Nat
  | 0 => 0
  | 1 => 0
  | month + 1 => daysBeforeMonth year month + monthLength year month

/-- Days since 1970-01-01. -/
def dayNumber (d : Date) : Int :=
  let y := d.year - 1
  ((y * 365 + y / 4 - y / 100 + y / 400 + daysBeforeMonth d.year d.month + d.day : Nat) : Int) -
    719163

end Date

/-- A number in decimal, padded with zeros on the left. -/
def padded (width n : Nat) : String :=
  let cs := Nat.toDigits 10 n
  String.ofList (List.replicate (width - cs.length) '0' ++ cs)

def Date.isoText (d : Date) : String :=
  padded 4 d.year ++ "-" ++ padded 2 d.month ++ "-" ++ padded 2 d.day

end Walkthrough
