import Walkthrough.Value.Equality

/-! Syntax trees of expressions. A chain passes a base value through stages from left to right; a
stage that does not fit its value lets it through. A numeral with too many digits cannot be read: it
has a place of its own in the tree, and a tree with such a place is not readable. -/
namespace Walkthrough.Expression

inductive Comparison where
  | equal
  | unequal
  | relation (r : Relation)
  deriving DecidableEq, Repr

mutual

inductive Expr where
  | literal (s : Scalar)
  | unread (numeral : String)
  | path (path : String)
  | either (first : Expr) (rest : List Expr)
  | both (first : Expr) (rest : List Expr)
  | choose (condition whenTrue whenFalse : Expr)
  | compare (comparison : Comparison) (left right : Expr)
  | not (operand : Expr)
  | exist (path : String)
  | concat (parts : List Expr)
  | object (properties : List (String × Expr))
  | chain (base : Expr) (stages : List Stage)

inductive Stage where
  | string
  | size
  | hasContent
  | join (separator : String)
  | split (separator : String)
  | map (item : String) (body : Expr)
  | unknown (raw : String)

end

deriving instance Repr for Expr
deriving instance Repr for Stage

instance : Inhabited Expr := ⟨.literal .null⟩

mutual

/-- All numerals of a tree have been read. -/
def Expr.readable : Expr → Bool
  | .literal _ | .path _ | .exist _ => true
  | .unread _ => false
  | .either first rest | .both first rest => first.readable && allReadable rest
  | .choose condition yes no => condition.readable && yes.readable && no.readable
  | .compare _ left right => left.readable && right.readable
  | .not e => e.readable
  | .concat parts => allReadable parts
  | .object properties => propertiesReadable properties
  | .chain base stages => base.readable && stagesReadable stages

def allReadable : List Expr → Bool
  | [] => true
  | e :: rest => e.readable && allReadable rest

def propertiesReadable : List (String × Expr) → Bool
  | [] => true
  | (_, e) :: rest => e.readable && propertiesReadable rest

def stagesReadable : List Stage → Bool
  | [] => true
  | stage :: rest => stage.readable && stagesReadable rest

def Stage.readable : Stage → Bool
  | .map _ body => body.readable
  | _ => true

end

theorem allReadable_eq_all (es : List Expr) : allReadable es = es.all Expr.readable := by
  induction es with
  | nil => rfl
  | cons e rest ih => rw [allReadable, List.all_cons, ih]

theorem propertiesReadable_eq_all (properties : List (String × Expr)) :
    propertiesReadable properties = properties.all (·.2.readable) := by
  induction properties with
  | nil => rfl
  | cons p rest ih => rw [propertiesReadable, List.all_cons, ih]

theorem stagesReadable_eq_all (stages : List Stage) :
    stagesReadable stages = stages.all Stage.readable := by
  induction stages with
  | nil => rfl
  | cons s rest ih => rw [stagesReadable, List.all_cons, ih]

end Walkthrough.Expression
