import Walkthrough.Calendar.Instant

/-! Reading of dates and points in time. A date is year, month and day with hyphens; a time follows
after a `T` or blanks, with seconds, an optional fraction and an optional offset. Month and day may
have one digit, though a date alone is recognised as one only if both have two. What has the form of
a date need not exist in the calendar. -/
namespace Walkthrough.Calendar

/-- A moment as written: with or without a time of day. -/
inductive Moment where
  | day (d : Date)
  | time (t : Instant)
  deriving DecidableEq, Repr

def Moment.isValid : Moment → Bool
  | day d => d.isValid
  | time t => t.isValid

def isAsciiDigit (c : Char) : Bool := '0' ≤ c && c ≤ '9'

/-- Between `least` and `most` ASCII digits, as many as there are. -/
def number? (least most : Nat) (cs : List Char) : Option (Nat × List Char) :=
  let ds := (cs.take most).takeWhile isAsciiDigit
  if ds.length < least then none
  else some (ds.foldl (fun n c => n * 10 + (c.toNat - 48)) 0, cs.drop ds.length)

def expect? (c : Char) : List Char → Option (List Char)
  | [] => none
  | d :: cs => if d == c then some cs else none

/-- Six digits of the fraction, missing ones being zero. -/
def fraction (cs : List Char) : Nat × List Char :=
  let ds := cs.takeWhile isAsciiDigit
  let kept := ds.take 6
  let read := kept.foldl (fun n c => n * 10 + (c.toNat - 48)) 0
  (read * Nat.pow 10 (6 - kept.length), cs.drop ds.length)

def isSpace (c : Char) : Bool := c == ' ' || c == '\t'

/-- The offset in seconds, which ends the text: `Z`, or a sign, hours and optional minutes. -/
def offset? (cs : List Char) : Option (Option Int) :=
  match cs.dropWhile isSpace with
  | [] => if cs.isEmpty then some none else none
  | 'Z' :: rest => if rest.isEmpty then some (some 0) else none
  | c :: rest =>
    if c == '+' || c == '-' then
      match number? 1 2 rest with
      | none => none
      | some (hours, tail) =>
        let signed (n : Nat) : Int := if c == '-' then -(n : Int) else n
        match tail with
        | [] => some (some (signed (hours * 3600)))
        | ':' :: more =>
          match number? 2 2 more with
          | some (minutes, []) => some (some (signed (hours * 3600 + minutes * 60)))
          | _ => none
        | _ => none
    else none

def time? (d : Date) (cs : List Char) : Option Moment := do
  let (hour, cs) ← number? 1 2 cs
  let cs ← expect? ':' cs
  let (minute, cs) ← number? 2 2 cs
  let cs ← expect? ':' cs
  let (second, cs) ← number? 2 2 cs
  let (micro, cs) := match cs with
    | '.' :: rest => fraction rest
    | _ => (0, cs)
  let offset ← offset? cs
  some (.time ⟨d, hour, minute, second, micro, offset⟩)

/-- The moment that a text spells. -/
def moment? (cs : List Char) : Option Moment := do
  let (year, rest) ← number? 4 4 cs
  let rest ← expect? '-' rest
  let (month, rest) ← number? 1 2 rest
  let rest ← expect? '-' rest
  let (day, rest) ← number? 1 2 rest
  let d : Date := ⟨year, month, day⟩
  match rest with
  | [] => some (.day d)
  | c :: tail =>
    if c == 'T' || c == 't' then time? d tail
    else if isSpace c then time? d (tail.dropWhile isSpace)
    else none

/-- The form by which a moment is recognised. -/
def hasMomentForm (cs : List Char) : Bool :=
  match moment? cs with
  | some (.day _) => cs.length == 10
  | some (.time _) => true
  | none => false

end Walkthrough.Calendar
