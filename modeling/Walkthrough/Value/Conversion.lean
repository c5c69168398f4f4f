import Walkthrough.Value.Coercion

/-! Maps from what stands for a map: a map itself, or pairs of key and value. A pair is whatever has
two parts: a list of two items, a text of two characters, or a map of two keys. Keys are scalars.
Nothing at all, in any of its forms, is the empty map. -/
namespace Walkthrough

/-- The ways in which a value fails to have the form asked for. -/
inductive ShapeError where
  | wrongKind
  | wrongLength
  deriving DecidableEq, Repr

/-- Errors that are not reported but leave an operation: computing with a value failed, a value is of
the wrong form, or it should have been text. -/
inductive Escape where
  | fault (f : Fault)
  | shape (e : ShapeError)
  | notText
  deriving DecidableEq, Repr

namespace Value

/-- The parts of a value, if it has parts. -/
def parts? : Data → Except ShapeError (List Data)
  | .list _ items => .ok items
  | .map _ entries => .ok (entries.map fun entry => .atom entry.1)
  | .text s => .ok (s.toList.map fun c => .text c.toString)
  | .atom _ => .error .wrongKind

def pair? (v : Data) : Except ShapeError (Scalar × Data) := do
  match ← v.parts? with
  | [.atom key, value] => .ok (key, value)
  | [_, _] => .error .wrongKind
  | _ => .error .wrongLength

/-- The entries of a map or the pairs of whatever has parts. -/
def pairs? (v : Data) : Except ShapeError (Entries Unit) :=
  match v with
  | .map _ entries => .ok entries
  | v => do return Entries.ofList (← (← v.parts?).mapM pair?)

def toEntries (v : Data) : Except ShapeError (Entries Unit) :=
  if v.isVoid then .ok [] else v.pairs?

end Value

end Walkthrough
