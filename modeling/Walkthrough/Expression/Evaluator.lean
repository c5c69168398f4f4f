import Walkthrough.Expression.Parser
import Walkthrough.Expression.Path
import Walkthrough.Value.Labels

/-! Evaluation of expressions. All operands of an operator are evaluated, only a conditional leaves
one branch alone. Nested expressions, that is the values of an object literal, the base of a chain
and the bodies of a mapping, fail to null on their own. Every container made on the way receives a
fresh label. -/
namespace Walkthrough.Expression

/-- A computation that can make containers: the state is the next free label. -/
abbrev Eval (α : Type) := StateT Nat (Except Fault) α

abbrev Result := Value Nat

def fresh : Eval Nat := modifyGet fun n => (n, n + 1)

/-- Failures of a nested expression become null. -/
def absorb (e : Eval Result) : Eval Result := fun n =>
  match e.run n with
  | .ok r => .ok r
  | .error _ => .ok (.null, n)

def newList (items : List Result) : Eval Result := do return .list (← fresh) items
def newMap (entries : Entries Nat) : Eval Result := do return .map (← fresh) entries

def isTrue (v : Result) : Eval Bool := liftM v.truth

/-- The first value that is true, or else the last. -/
def firstTrue (v : Result) : List Result → Eval Result
  | [] => return v
  | next :: rest => do firstTrue (if ← isTrue v then v else next) rest

/-- The first value that is false, or else the last. -/
def firstFalse (v : Result) : List Result → Eval Result
  | [] => return v
  | next :: rest => do firstFalse (if ← isTrue v then next else v) rest

def sameLabel (a b : Nat) : Bool := a == b

def compareValues (comparison : Comparison) (a b : Result) : Eval Bool :=
  match comparison with
  | .equal => liftM (a.looseEquals sameLabel b)
  | .unequal => return !(← a.looseEquals sameLabel b)
  | .relation r => liftM (a.compare r b)

/-- The number of items, entries or characters; anything else has none. -/
def size : Result → Nat
  | .list _ items => items.length
  | .map _ entries => entries.length
  | .text s => s.length
  | _ => 0

def hasContent : Result → Bool
  | .null | .missing => false
  | .list _ items => !items.isEmpty
  | .map _ entries => !entries.isEmpty
  | .text s => !s.isEmpty
  | _ => true

/-- The context in which the body of a mapping sees one item. -/
def withItem (item : String) (v : Result) : Result → Eval Result
  | .map label entries => return .map label (Entries.insert entries (.text item) v)
  | _ => throw .contextNotMap

def splitText (separator s : String) : List String :=
  if separator.isEmpty then s.toList.map Char.toString else Text.split separator s

mutual

def Expr.eval : Expr → Result → Eval Result
  | .literal s, _ => return .atom s
  | .unread _, _ => throw .tooManyDigits
  | .path p, context => liftM (resolve p context)
  | .either first rest, context => do
    let v ← first.eval context
    firstTrue v (← evalAll rest context)
  | .both first rest, context => do
    let v ← first.eval context
    firstFalse v (← evalAll rest context)
  | .choose condition yes no, context => do
    if ← isTrue (← condition.eval context) then yes.eval context else no.eval context
  | .compare comparison left right, context => do
    let a ← left.eval context
    let b ← right.eval context
    return .bool (← compareValues comparison a b)
  | .not e, context => do return .bool (!(← isTrue (← e.eval context)))
  | .exist p, context => do return .bool (!(← liftM (resolve p context)).isNullish)
  | .concat parts, context => do return .text ("".intercalate (← evalTexts parts context))
  | .object properties, context => do
    newMap (Entries.ofList (← evalProperties properties context))
  | .chain base stages, context => do
    applyAll stages (← absorb (base.eval context)) context

def evalAll : List Expr → Result → Eval (List Result)
  | [], _ => return []
  | e :: rest, context => do
    let v ← e.eval context
    return v :: (← evalAll rest context)

def evalTexts : List Expr → Result → Eval (List String)
  | [], _ => return []
  | e :: rest, context => do
    let v ← e.eval context
    let first ← v.display
    return first :: (← evalTexts rest context)

def evalProperties : List (String × Expr) → Result → Eval (List (Scalar × Result))
  | [], _ => return []
  | (name, e) :: rest, context => do
    let v ← absorb (e.eval context)
    return (.text name, v.normalize) :: (← evalProperties rest context)

def applyAll : List Stage → Result → Result → Eval Result
  | [], v, _ => return v
  | stage :: rest, v, context => do applyAll rest (← stage.apply v context) context

/-- One stage on a value. -/
def Stage.apply : Stage → Result → Result → Eval Result
  | .string, v, _ => do
    if ← isTrue v then return .text (← v.string) else return .text ""
  | .size, v, _ => return .int (size v)
  | .hasContent, v, _ => return .bool (hasContent v)
  | .join separator, .list _ items, _ => do
    return .text (separator.intercalate (← Value.displays items))
  | .split separator, .text s, _ => newList ((splitText separator s).map fun part => .text part)
  | .map item body, .list _ items, context => do
    newList (← items.mapM fun v => do
      let inner ← withItem item v context
      return (← absorb (body.eval inner)).normalize)
  | _, v, _ => return v

end

/-- Why a text has no value. -/
inductive ExpressionError where
  | unterminated (position : Nat)
  | failed (text : String) (fault : Fault)
  deriving DecidableEq, Repr

/-- The error's wording, up to the detail of a fault. -/
def ExpressionError.message : ExpressionError → String
  | .unterminated position => s!"Unterminated string starting at position {position}"
  | .failed text _ => "Failed to evaluate expression '" ++ text ++ "': "

/-- The value of a tree in a context of plain data. -/
def Expr.value (e : Expr) (context : Data) : Except Fault Data :=
  let (labelled, free) := context.labelled 0
  ((e.eval labelled).run free).map fun r => r.1.normalize.erase

/-- The value of a text; blank text is null. -/
def evaluateStrict (text : String) (context : Data) : Except ExpressionError Data :=
  if Text.allBlank text.toList then .ok .null
  else
    match parse text with
    | .error (.unterminated e) => .error (.unterminated e.position)
    | .error (.fault f) => .error (.failed text f)
    | .ok e => (e.value context).mapError (.failed text)

/-- The value of a text, every failure being null. A void context is an empty one. -/
def evaluateText (text : String) (context : Data) : Data :=
  match evaluateStrict text (if context.isVoid then .emptyMap else context) with
  | .ok v => v
  | .error _ => .null

/-- What is not text is a value already. -/
def evaluate (expression context : Data) : Data :=
  match expression with
  | .text s => evaluateText s context
  | v => v

def condition (expression context : Data) : Except Fault Bool := (evaluate expression context).truth

end Walkthrough.Expression
