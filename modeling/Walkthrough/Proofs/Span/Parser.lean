import Walkthrough.Proofs.Expression.Levels
import Walkthrough.Proofs.Expression.Tiling

/-! The parser on spans. Here it keeps one list of tokens for the whole text: a rule reads a half-open
span of it, looks at tokens by their places, reads texts that are not divided any more, and hands spans
on to other rules. All that it looks at, reads and hands on is written down. Places are whole numbers
of any size; no token stands at a negative one or behind the last. -/
namespace Walkthrough.Expression.Span

inductive Rule where
  | whole | disjunction | conjunction | conditional | equality | relational | operand
  | object | chain | stage
  deriving DecidableEq, Repr

def Rule.tightness : Rule → Nat
  | whole => 0 | disjunction => 1 | conjunction => 2 | conditional => 3 | equality => 4
  | relational => 5 | operand => 6 | object | chain | stage => 7

abbrev Rule.Result : Rule → Type
  | stage => Stage
  | _ => Expr

structure Call where
  rule : Rule
  lo : Int
  hi : Int
  deriving DecidableEq, Repr

/-- On a shorter span, or on the same one by a tighter rule. -/
def Call.Below (callee caller : Call) : Prop :=
  callee.hi - callee.lo < caller.hi - caller.lo ∨
    callee.lo = caller.lo ∧ callee.hi = caller.hi ∧
      caller.rule.tightness < callee.rule.tightness

inductive Act where
  | look (place : Int)
  | read (cs : List Char)
  | hand (caller callee : Call)
  deriving DecidableEq, Repr

inductive Fault where
  | outside (place : Int)
  | tooManyDigits
  | tooDeep
  deriving DecidableEq, Repr

/-- A result, with all that was done on the way to it. -/
structure Traced (α : Type) where
  acts : List Act
  result : Except Fault α

instance : Monad Traced where
  pure a := ⟨[], .ok a⟩
  bind p f :=
    match p.result with
    | .ok a => ⟨p.acts ++ (f a).acts, (f a).result⟩
    | .error e => ⟨p.acts, .error e⟩

instance : LawfulMonad Traced := LawfulMonad.mk' Traced
  (by
    rintro α ⟨acts, e | a⟩
    · rfl
    · simp [Functor.map])
  (by intros; rfl)
  (by
    rintro α β γ ⟨acts, e | a⟩ f g
    · rfl
    · simp only [bind]
      cases (f a).result with
      | error e => rfl
      | ok b => simp)

structure Source where
  text : List Char
  spots : List Spot

section Scans

variable (s : Source)

def look (place : Int) : Traced Spot where
  acts := [.look place]
  result :=
    match if 0 ≤ place then s.spots[place.toNat]? else none with
    | some t => .ok t
    | none => .error (.outside place)

/-- The text from the first token of a span to its last. -/
def covered (lo hi : Int) : Traced (List Char) :=
  if hi ≤ lo then return []
  else do
    let first ← look s lo
    let last ← look s (hi - 1)
    return s.text.extract first.start last.stop

/-- Whether a token is exposed at a depth, and the depth behind it. -/
def pass (depth : Int) (t : Spot) : Bool × Int :=
  if t.kind.isOpener then (depth == 0, depth + 1)
  else if t.kind.isCloser then (depth - 1 == 0, depth - 1)
  else (depth == 0, depth)

def exposedFrom (depth place : Int) : Nat → Traced (List (Int × Spot))
  | 0 => return []
  | n + 1 => do
    let t ← look s place
    let (shown, after) := pass depth t
    let rest ← exposedFrom after (place + 1) n
    return if shown then (place, t) :: rest else rest

def topLevel (lo hi : Int) : Traced (List (Int × Spot)) := exposedFrom s 0 lo (hi - lo).toNat

def seekFrom (wanted : Kind → Bool) (depth place : Int) : Nat → Traced (Option Int)
  | 0 => return none
  | n + 1 => do
    let t ← look s place
    let (shown, after) := pass depth t
    if shown && wanted t.kind then return some place
    else seekFrom wanted after (place + 1) n

/-- The first exposed token that is wanted; nothing behind it is looked at. -/
def seek (wanted : Kind → Bool) (lo hi : Int) : Traced (Option Int) :=
  seekFrom s wanted 0 lo (hi - lo).toNat

def closingFrom (depth place : Int) : Nat → Traced Int
  | 0 => return -1
  | n + 1 => do
    let t ← look s place
    if t.kind.isOpener then closingFrom (depth + 1) (place + 1) n
    else if t.kind.isCloser then
      if depth - 1 == 0 then return place else closingFrom (depth - 1) (place + 1) n
    else closingFrom depth (place + 1) n

/-- Where the bracket closes that opens a span, or else -1. -/
def closing (lo hi : Int) : Traced Int := closingFrom s 0 lo (hi - lo).toNat

def isGroup (opens : Kind → Bool) (lo hi : Int) : Traced Bool :=
  if hi - lo < 2 then return false
  else do
    let t ← look s lo
    if opens t.kind then return (← closing s lo hi) == hi - 1 else return false

def placesOf (kind : Kind) (shown : List (Int × Spot)) : List Int :=
  (shown.filter fun p => p.2.kind == kind).map (·.1)

def spansBetween (start hi : Int) : List Int → (Int × Int) × List (Int × Int)
  | [] => ((start, hi), [])
  | place :: places =>
    let (first, rest) := spansBetween (place + 1) hi places
    ((start, place), first :: rest)

def divided (kind : Kind) (lo hi : Int) : Traced ((Int × Int) × List (Int × Int)) := do
  let shown ← topLevel s lo hi
  return spansBetween lo hi (placesOf kind shown)

/-- A question mark, the word `then` and a parenthesis with nothing in between. -/
def marksThen (place hi : Int) : Traced Bool :=
  if hi ≤ place + 2 then return false
  else do
    let mark ← look s place
    if mark.kind == .question then do
      let word ← look s (place + 1)
      let paren ← look s (place + 2)
      return word.kind == .word && word.value == "then".toList && word.start == mark.stop &&
        paren.kind == .leftParen && paren.start == word.stop
    else return false

def thenMarks (hi : Int) : List (Int × Spot) → Traced (List Int)
  | [] => return []
  | (place, _) :: shown => do
    let marks ← marksThen s place hi
    let rest ← thenMarks hi shown
    return if marks then place :: rest else rest

/-- Where the condition of a call of `then` ends, and the spans of its branches. -/
def branches (lo hi : Int) : Traced (Option (Int × (Int × Int) × (Int × Int))) := do
  let shown ← topLevel s lo hi
  let marks ← thenMarks s hi shown
  match marks.getLast? with
  | none => return none
  | some q =>
    if lo < q then do
      let close ← closing s (q + 2) hi
      if close == hi - 1 then do
        let (yes, rest) ← divided s .comma (q + 3) (hi - 1)
        match rest with
        | [no] => return some (q, yes, no)
        | _ => return none
      else return none
    else return none

/-- The first operator that divides a span, and the first two spans that it makes. -/
def sides {α : Type} (lo hi : Int) :
    List (Kind × α) → Traced (Option (α × (Int × Int) × (Int × Int)))
  | [] => return none
  | (kind, x) :: operators => do
    let (left, rest) ← divided s kind lo hi
    match rest with
    | right :: _ => return some (x, left, right)
    | [] => sides lo hi operators

def isStageMark (kind : Kind) : Bool := kind == .question || kind == .exist

/-- The base of a chain and its stages, of which a double question mark makes an empty one. -/
def stageSpans (start hi : Int) : List (Int × Spot) → (Int × Int) × List (Int × Int)
  | [] => ((start, hi), [])
  | (place, t) :: shown =>
    if t.kind == .question then
      let (first, rest) := stageSpans (place + 1) hi shown
      ((start, place), first :: rest)
    else if t.kind == .exist then
      let (first, rest) := stageSpans (place + 1) hi shown
      ((start, place), (place, place) :: first :: rest)
    else stageSpans start hi shown

def argumentOf (lo hi : Int) : Traced (List Char) := do
  let paren ← look s (lo + 1)
  let last ← look s (hi - 1)
  return s.text.extract paren.stop last.start

end Scans

section Levels

variable (s : Source) (next : Int → Int → Traced Expr) (lo hi : Int)

/-- Operands of one operator, each read on the next level; without the operator, the span is. -/
def readOperands (kind : Kind) (make : Expr → List Expr → Expr) : Traced Expr := do
  let (first, rest) ← divided s kind lo hi
  if rest.isEmpty then next lo hi
  else do
    let x ← next first.1 first.2
    let xs ← rest.mapM fun p => next p.1 p.2
    return make x xs

def readSides {α : Type} (operators : List (Kind × α)) (comparison : α → Comparison) :
    Traced Expr := do
  match ← sides s lo hi operators with
  | some (x, left, right) => do
    let a ← next left.1 left.2
    let b ← next right.1 right.2
    return .compare (comparison x) a b
  | none => next lo hi

end Levels

section Rules

variable (s : Source) (go : (c : Call) → Traced c.rule.Result) (lo hi : Int)

def readWhole : Traced Expr :=
  if hi ≤ lo then return .literal .null
  else do
    if ← isGroup s (· == .dollarBrace) lo hi then go ⟨.disjunction, lo + 1, hi - 1⟩
    else go ⟨.disjunction, lo, hi⟩

def readConditional : Traced Expr := do
  match ← branches s lo hi with
  | some (q, yes, no) => do
    let condition ← go ⟨.disjunction, lo, q⟩
    let whenTrue ← go ⟨.conditional, yes.1, yes.2⟩
    let whenFalse ← go ⟨.conditional, no.1, no.2⟩
    return .choose condition whenTrue whenFalse
  | none => go ⟨.equality, lo, hi⟩

/-- Reading ends at a text that is a numeral with too many digits. -/
def readLeaf (cs : List Char) : Traced Expr :=
  ⟨[.read cs], if (leaf cs).readable then .ok (leaf cs) else .error .tooManyDigits⟩

/-- A span that neither brackets enclose nor a plus divides. -/
def readSingle : Traced Expr := do
  let first ← look s lo
  if first.kind == .not then return .not (← go ⟨.operand, lo + 1, hi⟩)
  else do
    let last ← look s (hi - 1)
    if last.kind == .exist then return .exist (String.ofList (← covered s lo (hi - 1)))
    else do
      let mark ← seek s isStageMark lo hi
      if mark.isSome then go ⟨.chain, lo, hi⟩ else readLeaf (← covered s lo hi)

def readOperand : Traced Expr :=
  if hi ≤ lo then return .path ""
  else do
    if ← isGroup s isGroupOpener lo hi then go ⟨.disjunction, lo + 1, hi - 1⟩
    else if ← isGroup s (· == .leftBrace) lo hi then go ⟨.object, lo + 1, hi - 1⟩
    else do
      let (first, rest) ← divided s .plus lo hi
      if rest.isEmpty then readSingle s go lo hi
      else return .concat (← (first :: rest).mapM fun p => go ⟨.operand, p.1, p.2⟩)

def readProperty : Traced (Option (String × Expr)) := do
  match ← seek s (· == .colon) lo hi with
  | some colon => do
    let key ← covered s lo colon
    let value ← go ⟨.whole, colon + 1, hi⟩
    return some (String.ofList ((unquoted? key).getD key), value)
  | none => return none

def readObject : Traced Expr := do
  let (first, rest) ← divided s .comma lo hi
  let properties ← (first :: rest).mapM fun p => readProperty s go p.1 p.2
  return .object (properties.filterMap id)

def readChain : Traced Expr := do
  let shown ← topLevel s lo hi
  let (base, stages) := stageSpans lo hi shown
  let x ← go ⟨.whole, base.1, base.2⟩
  let xs ← stages.mapM fun p => go ⟨.stage, p.1, p.2⟩
  return .chain x xs

/-- The body of a mapping ends at the second arrow, if there is one. -/
def readMapping (raw : List Char) : Traced Stage := do
  let shown ← topLevel s (lo + 2) (hi - 1)
  match placesOf .arrow shown with
  | [] => return .unknown (String.ofList raw)
  | arrow :: more => do
    let item ← covered s (lo + 2) arrow
    let body ← go ⟨.whole, arrow + 1, more.headD (hi - 1)⟩
    return .map (String.ofList item) body

def readStage : Traced Stage := do
  let raw ← covered s lo hi
  if raw = "string".toList then return .string
  else if raw = "size".toList then return .size
  else if raw = "has_content".toList then return .hasContent
  else if isCall "join" raw then return .join (separator (← argumentOf s lo hi))
  else if isCall "split" raw then return .split (separator (← argumentOf s lo hi))
  else if isCall "map" raw then readMapping s go lo hi raw
  else return .unknown (String.ofList raw)

end Rules

/-- One call; what it hands on is answered by another reading. -/
def body (s : Source) (self : (c : Call) → Traced c.rule.Result) (c : Call) :
    Traced c.rule.Result :=
  let go : (callee : Call) → Traced callee.rule.Result := fun callee =>
    ⟨.hand c callee :: (self callee).acts, (self callee).result⟩
  match c with
  | ⟨.whole, lo, hi⟩ => readWhole s go lo hi
  | ⟨.disjunction, lo, hi⟩ =>
    readOperands s (fun a b => go ⟨.conjunction, a, b⟩) lo hi .or .either
  | ⟨.conjunction, lo, hi⟩ =>
    readOperands s (fun a b => go ⟨.conditional, a, b⟩) lo hi .and .both
  | ⟨.conditional, lo, hi⟩ => readConditional s go lo hi
  | ⟨.equality, lo, hi⟩ =>
    readSides s (fun a b => go ⟨.relational, a, b⟩) lo hi
      [(.eq, Comparison.equal), (.ne, .unequal)] id
  | ⟨.relational, lo, hi⟩ =>
    readSides s (fun a b => go ⟨.operand, a, b⟩) lo hi
      [(.ge, Relation.atLeast), (.le, .atMost), (.gt, .greater), (.lt, .less)] .relation
  | ⟨.operand, lo, hi⟩ => readOperand s go lo hi
  | ⟨.object, lo, hi⟩ => readObject s go lo hi
  | ⟨.chain, lo, hi⟩ => readChain s go lo hi
  | ⟨.stage, lo, hi⟩ => readStage s go lo hi

def run (s : Source) : Nat → (c : Call) → Traced c.rule.Result
  | 0, _ => ⟨[], .error .tooDeep⟩
  | depth + 1, c => body s (run s depth) c

end Walkthrough.Expression.Span
