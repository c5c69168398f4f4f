import Walkthrough.Calendar.Reading
import Walkthrough.Markup.Content
import Walkthrough.Markup.Token
import Walkthrough.Number.Arithmetic
import Walkthrough.Number.Numeral
import Walkthrough.Text.Base64
import Walkthrough.Text.Lowercase
import Walkthrough.Text.Parts

/-! Kinds of scalars. A plain scalar without a tag is null, a truth value, a number or a moment if
its text has that form, and text otherwise. Whole numbers may have digits in groups, a sign, a base,
or parts that count sixty each; other numbers need a point, and a sign in front of the exponent. A
tag asks for less: whatever can be read as its kind will do. -/
namespace Walkthrough.Markup

def isGrouped (p : Char → Bool) (cs : List Char) : Bool := cs.all fun c => c == '_' || p c

def isSign (c : Char) : Bool := c == '+' || c == '-'

def ungrouped (cs : List Char) : List Char := cs.filter (· != '_')

/-- Digits in groups that begin with a digit of a class. -/
def isNumeral (first : Char → Bool) : List Char → Bool
  | [] => false
  | c :: cs => first c && isGrouped isAsciiDigit cs

/-- Up to fifty-nine, in one digit or two. -/
def isSixtieth : List Char → Bool
  | [a] => isAsciiDigit a
  | [a, b] => '0' ≤ a && a ≤ '5' && isAsciiDigit b
  | _ => false

def isNonzero (c : Char) : Bool := '1' ≤ c && c ≤ '9'

/-- The forms of a whole number without a sign. -/
def hasWholeForm (cs : List Char) : Bool :=
  match cs with
  | ['0'] => true
  | '0' :: 'b' :: body => !body.isEmpty && isGrouped (fun c => c == '0' || c == '1') body
  | '0' :: 'x' :: body => !body.isEmpty && isGrouped (fun c => (Text.hexValue? c).isSome) body
  | '0' :: body => !body.isEmpty && isGrouped (fun c => '0' ≤ c && c ≤ '7') body
  | cs =>
    match Text.partsOf [':'] cs with
    | [] => false
    | first :: rest => isNumeral isNonzero first && rest.all isSixtieth

/-- An exponent with its sign, or nothing. -/
def isPower : List Char → Bool
  | [] => true
  | e :: sign :: ds => (e == 'e' || e == 'E') && isSign sign && !ds.isEmpty && ds.all isAsciiDigit
  | _ => false

/-- A fraction in groups and an exponent. -/
def isFraction (cs : List Char) : Bool :=
  isPower (cs.dropWhile fun c => c == '_' || isAsciiDigit c)

def infinityForms : List (List Char) := [".inf".toList, ".Inf".toList, ".INF".toList]

def nanForms : List (List Char) := [".nan".toList, ".NaN".toList, ".NAN".toList]

def hasFractionForm (cs : List Char) : Bool :=
  let (_, body) := Numeral.splitSign cs
  infinityForms.contains body || nanForms.contains cs ||
    match cs with
    | '.' :: c :: rest => isAsciiDigit c && isFraction rest
    | _ =>
      let whole := body.takeWhile (· != '.')
      match body.drop whole.length with
      | '.' :: fraction =>
        match Text.partsOf [':'] whole with
        | [] => false
        | [only] => isNumeral isAsciiDigit only && isFraction fraction
        | first :: rest =>
          isNumeral isAsciiDigit first && rest.all isSixtieth && isGrouped isAsciiDigit fraction
      | _ => false

def nullForms : List String := ["~", "null", "Null", "NULL"]

def trueForms : List String :=
  ["yes", "Yes", "YES", "true", "True", "TRUE", "on", "On", "ON"]

def falseForms : List String :=
  ["no", "No", "NO", "false", "False", "FALSE", "off", "Off", "OFF"]

/-- Signs that are kept for a language of their own. -/
def languageSigns : List String := ["!", "&", "*"]

/-- A line break at the end of a text does not touch its form. -/
def withoutLastBreak (cs : List Char) : List Char :=
  if cs.getLast? == some '\n' then cs.dropLast else cs

/-- The kind of a text without a tag. -/
def Kind.ofPlain (text : String) : Kind :=
  let cs := withoutLastBreak text.toList
  let form := String.ofList cs
  if form.isEmpty then (if text.isEmpty then .null else .text)
  else if nullForms.contains form then .null
  else if trueForms.contains form || falseForms.contains form then .bool
  else if form == "=" then .value
  else if form == "<<" then .merge
  else if languageSigns.contains form then .unknown
  else if hasWholeForm (Numeral.splitSign cs).2 then .int
  else if hasFractionForm cs then .float
  else if Calendar.hasMomentForm cs then .moment
  else .text

def truthOf (text : String) : Except MarkupError Bool :=
  let word := Text.lower text
  if trueForms.contains word then .ok true
  else if falseForms.contains word then .ok false
  else .error .notTruth

/-- A whole number: in the base that it names, in base eight behind a zero, or else in parts between
colons, each counting sixty of the next. -/
def wholeOf (text : String) : Except MarkupError Int :=
  let (negative, body) := Numeral.splitSign (ungrouped text.toList)
  let signed (n : Option Int) : Except MarkupError Int :=
    match n with
    | some n => .ok (if negative then -n else n)
    | none => .error .notNumber
  match body with
  | [] => .error .emptyNumber
  | '0' :: 'b' :: ds => signed (Numeral.inBase? 2 ds)
  | '0' :: 'x' :: ds => signed (Numeral.inBase? 16 ds)
  | '0' :: _ => signed (Numeral.inBase? 8 body)
  | _ =>
    signed (((Text.partsOf [':'] body).mapM (Numeral.inBase? 10)).map
      (List.foldl (fun n part => n * 60 + part) 0))

/-- The sum of parts, the last first, each counting sixty of the one before. Every product and every
sum is rounded, and no weight may be beyond all doubles. -/
def sumSixtieths (weight : Nat) (total : Double) : List Double → Except MarkupError Double
  | [] => .ok total
  | d :: rest =>
    if overflowsDouble weight then .error .numberTooLarge
    else sumSixtieths (weight * 60) (total.add (d.mul (.ofInt weight))) rest

def doubleOf (text : String) : Except MarkupError Content :=
  let cs := ungrouped (Text.lower text).toList
  let (negative, body) := Numeral.splitSign cs
  let signed (d : Double) : Content :=
    .scalar (.number (.double (if negative then d.negate else d)))
  if cs.isEmpty then .error .emptyNumber
  else if body == ".inf".toList then .ok (signed (.infinity false))
  else if body == ".nan".toList then .ok .notNumber
  else
    match (Text.partsOf [':'] body).mapM Numeral.double? with
    | none => .error .notNumber
    | some [d] => .ok (signed d)
    | some ds => (sumSixtieths 1 (.zero false) ds.reverse).map signed

def momentOf (text : String) : Except MarkupError Scalar :=
  match Calendar.moment? (withoutLastBreak text.toList) with
  | none => .error .notMoment
  | some m =>
    if m.isValid then
      match m with
      | .day d => .ok (.date d)
      | .time t => .ok (.instant t)
    else .error .noSuchMoment

/-- What a scalar of a kind holds. Only the kinds of scalars have an answer. -/
def Kind.read (kind : Kind) (text : String) : Except MarkupError Content :=
  match kind with
  | .null => .ok (.scalar .null)
  | .bool => (truthOf text).map fun b => .scalar (.bool b)
  | .int => (wholeOf text).map fun n => .scalar (.number (.int n))
  | .float => doubleOf text
  | .moment => (momentOf text).map .scalar
  | .bytes =>
    match Text.bytes? text.toList with
    | some bs => .ok (.bytes bs)
    | none => .error .malformed
  | .text => .ok (.scalar (.text text))
  | _ => .error .malformed

end Walkthrough.Markup
