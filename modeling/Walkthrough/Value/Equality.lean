import Walkthrough.Value.Coercion

/-! Loose equality and the relational operators. Numbers, text and truth values meet as numbers;
a container meets a scalar as text; two containers are equal only when they are the same one, which
the caller decides on their labels. -/
namespace Walkthrough

namespace Scalar

/-- Equality of two scalars. Truth values count as 0 and 1, text meets a number as a number. -/
def looseEquals : Scalar → Scalar → Except Fault Bool
  | .null, b => .ok (b == .null || b == .missing)
  | .missing, b => .ok (b == .null || b == .missing)
  | _, .null => .ok false
  | _, .missing => .ok false
  | .text a, .text b => .ok (a == b)
  | .instant a, .instant b => .ok (a.same b)
  | .date a, .date b => .ok (a == b)
  | .date _, _ => .ok false
  | .instant _, _ => .ok false
  | _, .date _ => .ok false
  | _, .instant _ => .ok false
  | a, b => do
    let m ← a.toNumber
    let n ← b.toNumber
    return m.equals n

end Scalar

namespace Value

variable {ι : Type}

/-- The label of a container. -/
def label? : Value ι → Option ι
  | .atom _ => none
  | .list label _ => some label
  | .map label _ => some label

/-- Loose equality; `same` tells whether two containers are one. Null and missing are compared before
anything gives way to its text. -/
def looseEquals (same : ι → ι → Bool) (a b : Value ι) : Except Fault Bool :=
  if a.isNullish || b.isNullish then .ok (a.isNullish && b.isNullish)
  else
    match a.label?, b.label? with
    | some x, some y => .ok (same x y)
    | _, _ => do (← a.primitive).looseEquals (← b.primitive)

end Value

inductive Relation where
  | less
  | greater
  | atMost
  | atLeast
  deriving DecidableEq, Repr

def Relation.ofText? (s : String) : Option Relation :=
  if s == "<" then some .less
  else if s == ">" then some .greater
  else if s == "<=" then some .atMost
  else if s == ">=" then some .atLeast
  else none

def Relation.holds : Relation → Ordering → Bool
  | .less, o => o.isLT
  | .greater, o => o.isGT
  | .atMost, o => o.isLE
  | .atLeast, o => o.isGE

/-- Text is ordered by code points, everything else by number; not a number has no order. -/
def Scalar.order (a b : Scalar) : Except Fault (Option Ordering) :=
  match a, b with
  | .text s, .text t => .ok (some (compareOfLessAndEq s t))
  | _, _ => do
    let m ← a.toNumber
    let n ← b.toNumber
    if m.overflows then .error .numberTooLarge
    else if !m.isNaN && n.overflows then .error .numberTooLarge
    else .ok (m.order? n)

/-- Operands without an order are in no relation. -/
def Value.compare {ι : Type} (relation : Relation) (a b : Value ι) : Except Fault Bool := do
  match ← (← a.primitive).order (← b.primitive) with
  | some o => .ok (relation.holds o)
  | none => .ok false

/-- Why a comparison by a written operator has no answer. -/
inductive ComparisonError where
  | fault (f : Fault)
  | unknownRelation (name : String)
  deriving DecidableEq, Repr

def ComparisonError.message : ComparisonError → Option String
  | .fault _ => none
  | .unknownRelation name => some ("Unknown relational operator: " ++ name)

/-- Comparison by the operator's text. An unknown operator goes unnoticed where the operands have
no order. -/
def Value.compareBy {ι : Type} (name : String) (a b : Value ι) : Except ComparisonError Bool := do
  let s ← a.primitive.mapError .fault
  let t ← b.primitive.mapError .fault
  match ← (s.order t).mapError .fault with
  | none => .ok false
  | some o =>
    match Relation.ofText? name with
    | some relation => .ok (relation.holds o)
    | none => .error (.unknownRelation name)

end Walkthrough
