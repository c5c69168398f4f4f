import Walkthrough.Text.Parts
import Walkthrough.Value.Coercion

/-! Dotted paths. Each part looks up a member of the value before it; a path that goes on behind
null or a missing value is null, while a last part that is not there leaves a missing value. -/
namespace Walkthrough.Expression

variable {ι : Type}

/-- A position in a text is written in ASCII digits without leading zeros. Other digits are no
position; a digit without decimal value has no number at all, and too many digits are not read. -/
def characterAt (cs part : List Char) : Except Fault (Value ι) :=
  if part.isEmpty || !part.all (fun c => Text.isDecimal c || Text.isSymbolicDigit c) then
    .ok .missing
  else if part.any Text.isSymbolicDigit then .error .digitWithoutValue
  else if digitLimit < part.length then .error .tooManyDigits
  else
    let n := Numeral.natOfDigits 10 (Numeral.digitRun part).1
    if Nat.toDigits 10 n = part then
      match cs[n]? with
      | some c => .ok (.text c.toString)
      | none => .ok .missing
    else .ok .missing

/-- A position in a list is the whole number with which the part begins, if the part is a numeral
at all. -/
def itemAt (items : List (Value ι)) (part : List Char) : Except Fault (Value ι) := do
  if (← Numeral.parse? part).isNone && !Text.allBlank part then return .missing
  match ← Numeral.intPrefix? part with
  | none => return .missing
  | some i => return if i < 0 then .missing else items[i.toNat]?.getD .missing

/-- One part of a path. Lists and texts also have a length. -/
def member (v : Value ι) (part : String) : Except Fault (Value ι) :=
  match v with
  | .list _ items =>
    if part == "length" then .ok (.int items.length) else itemAt items part.toList
  | .text s =>
    if part == "length" then .ok (.int s.length) else characterAt s.toList part.toList
  | .map _ entries => .ok ((Entries.field? entries part).getD .missing)
  | _ => .ok .missing

def follow : List String → Value ι → Except Fault (Value ι)
  | [], v => .ok v
  | part :: rest, v => if v.isNullish then .ok .null else do follow rest (← member v part)

/-- The value that a path leads to. -/
def resolve (path : String) (context : Value ι) : Except Fault (Value ι) :=
  follow (Text.split "." path) context

end Walkthrough.Expression
