import Walkthrough.Text.Quoted
import Walkthrough.Value.Basic

/-! How the log and the error messages show values. A value on its own is shown plainly, text
without quotes; inside a container it is shown so that its kind can be told. What holds a whole number
with too many digits cannot be shown. -/
namespace Walkthrough

/-- The fields of a moment down to the last that is not zero, seconds and microseconds being the
only ones that may go. -/
def Instant.listedFields (t : Instant) : List Nat :=
  [t.date.year, t.date.month, t.date.day, t.hour, t.minute] ++
    (if t.micro != 0 then [t.second, t.micro]
    else if t.second != 0 then [t.second]
    else [])

def Instant.listedOffset (seconds : Int) : String :=
  if seconds == 0 then "datetime.timezone.utc"
  else
    let inner :=
      if seconds < 0 then s!"days=-1, seconds={seconds + 86400}" else s!"seconds={seconds}"
    "datetime.timezone(datetime.timedelta(" ++ inner ++ "))"

def Instant.listed (t : Instant) : String :=
  "datetime.datetime(" ++ ", ".intercalate (t.listedFields.map toString) ++
    (match t.offset with
    | some seconds => ", tzinfo=" ++ Instant.listedOffset seconds
    | none => "") ++ ")"

/-- A scalar inside a container, however long it is. -/
def Scalar.listing : Scalar → String
  | .null => "None"
  | .missing => "UNDEFINED"
  | .bool b => if b then "True" else "False"
  | .number n => n.exactText
  | .text s => Text.quoted s
  | .date d => s!"datetime.date({d.year}, {d.month}, {d.day})"
  | .instant t => t.listed

/-- A scalar inside a container. -/
def Scalar.listed : Scalar → Except Fault String
  | .number n => n.written Number.exactText
  | s => .ok s.listing

namespace Value

variable {ι : Type}

mutual

/-- A value inside a container. -/
def listed : Value ι → Except Fault String
  | .atom s => s.listed
  | .list _ items => (listedItems items).map fun parts => "[" ++ ", ".intercalate parts ++ "]"
  | .map _ entries =>
    (listedEntries entries).map fun parts => "\x7b" ++ ", ".intercalate parts ++ "\x7d"

def listedItems : List (Value ι) → Except Fault (List String)
  | [] => .ok []
  | v :: rest => do
    let first ← v.listed
    return first :: (← listedItems rest)

def listedEntries : List (Scalar × Value ι) → Except Fault (List String)
  | [] => .ok []
  | (k, v) :: rest => do
    let key ← k.listed
    let value ← v.listed
    return (key ++ ": " ++ value) :: (← listedEntries rest)

end

/-- A value on its own. -/
def shown : Value ι → Except Fault String
  | .text s => .ok s
  | .atom (.date d) => .ok d.isoText
  | .atom (.instant t) => .ok (t.text " ")
  | v => v.listed

end Value

end Walkthrough
