import Walkthrough.Number.Numeral
import Walkthrough.Value.Basic

/-! The one place where values change kind. Expressions are loose about kinds: every operator
brings its operands to the kind it needs by the rules below. What can make one of them fail is a whole
number: one beyond every double has no truth, and one with too many digits is neither read nor
written. -/
namespace Walkthrough

namespace Value

variable {ι : Type}

def isNullish : Value ι → Bool
  | null | missing => true
  | _ => false

/-- A setting or an attribute counts as not given when it is void: null, missing, false, zero, or
empty text, list or map. -/
def isVoid : Value ι → Bool
  | .null | .missing => true
  | .bool b => !b
  | .number n => n.equals .zero
  | .text s => s.isEmpty
  | .list _ items => items.isEmpty
  | .map _ entries => entries.isEmpty
  | .atom _ => false

/-- The first of two values that is given. -/
def orElse (v other : Value ι) : Value ι := if v.isVoid then other else v

/-- A missing value becomes null where results leave. -/
def normalize : Value ι → Value ι
  | missing => null
  | v => v

/-- Null, missing, false, zero, not a number and empty text are false. -/
def truth : Value ι → Except Fault Bool
  | null | missing => .ok false
  | bool b => .ok b
  | number n =>
    if n.equals .zero then .ok false
    else if n.overflows then .error .numberTooLarge
    else .ok !n.isNaN
  | text s => .ok !s.isEmpty
  | _ => .ok true

mutual

/-- The text of a value; a list is its items between commas, a map has no text of its own. -/
def string : Value ι → Except Fault String
  | missing => .ok "undefined"
  | null => .ok "null"
  | bool b => .ok (if b then "true" else "false")
  | number n => n.written Number.plainText
  | text s => .ok s
  | .atom (.date d) => .ok d.isoText
  | .atom (.instant t) => .ok t.isoText
  | .list _ items => (displays items).map (",".intercalate ·)
  | .map _ _ => .ok "[object Object]"

/-- The texts of values inside other text: nothing for null and missing. -/
def displays : List (Value ι) → Except Fault (List String)
  | [] => .ok []
  | v :: rest => do
    let first ← if v.isNullish then .ok "" else v.string
    return first :: (← displays rest)

end

/-- The text of a value inside other text. -/
def display (v : Value ι) : Except Fault String := if v.isNullish then .ok "" else v.string

theorem displays_eq_mapM (items : List (Value ι)) : displays items = items.mapM display := by
  induction items with
  | nil => rfl
  | cons v rest ih =>
    rw [displays, List.mapM_cons, ih, display]
    split <;> rfl

/-- Containers give way to their text. -/
def primitive : Value ι → Except Fault Scalar
  | .atom s => .ok s
  | v => v.string.map Scalar.text

end Value

def Scalar.toNumber : Scalar → Except Fault Number
  | .null => .ok .zero
  | .missing => .ok .nan
  | .bool b => .ok (.ofBool b)
  | .number n => .ok n
  | .text s =>
    if Text.allBlank s.toList then .ok .zero
    else (Numeral.parse? s.toList).map fun n => n.getD .nan
  | .date _ => .ok .nan
  | .instant t => .ok (.double t.epochMillis)

def Value.toNumber {ι : Type} (v : Value ι) : Except Fault Number := do (← v.primitive).toNumber

mutual

/-- Plain data: null, truth values, finite numbers, text, and containers of these whose keys are
text. -/
def Value.isStructured {ι : Type} : Value ι → Bool
  | .null | .bool _ | .text _ => true
  | .number n => n.isFinite
  | .atom _ => false
  | .list _ items => Value.allStructured items
  | .map _ entries => Value.entriesStructured entries

def Value.allStructured {ι : Type} : List (Value ι) → Bool
  | [] => true
  | v :: rest => v.isStructured && Value.allStructured rest

def Value.entriesStructured {ι : Type} : List (Scalar × Value ι) → Bool
  | [] => true
  | (.text _, v) :: rest => v.isStructured && Value.entriesStructured rest
  | _ :: _ => false

end

end Walkthrough
