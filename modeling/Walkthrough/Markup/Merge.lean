import Walkthrough.Markup.Graph

/-! Merge keys. What such a key brings in stands in front of the mapping's own entries: those of one
mapping, or of several, the last first. The mapping is changed in the graph, for all who refer to
it. -/
namespace Walkthrough.Markup.Graph

/-- Takes the first entry with a merge key out of a mapping. -/
def takeMerge? (g : Graph) (i : Nat) : Option (Nat × Graph) :=
  match g.vertex i with
  | .mapping kind entries =>
    match entries.span fun entry => (g.vertex entry.1).kind != .merge with
    | (before, entry :: after) =>
      some (entry.2, g.setIfInBounds i (.mapping kind (before ++ after)))
    | (_, []) => none
  | _ => none

/-- An equals sign is text as a key. -/
def readAsKey (g : Graph) (i : Nat) : Graph :=
  match g.vertex i with
  | .scalar .value text => g.setIfInBounds i (.scalar .text text)
  | .sequence .value items => g.setIfInBounds i (.sequence .text items)
  | .mapping .value entries => g.setIfInBounds i (.mapping .text entries)
  | _ => g

/-- Puts entries in front of a mapping's own. -/
def prepend (g : Graph) (i : Nat) (new : List (Nat × Nat)) : Graph :=
  match g.vertex i with
  | .mapping kind entries =>
    let g := entries.foldl (fun g entry => g.readAsKey entry.1) g
    if new.isEmpty then g else g.setIfInBounds i (.mapping kind (new ++ entries))
  | _ => g

/-- Resolves the merge keys of a mapping, then puts what they brought in and what is given in front.
Every merge key is taken out before its value is looked at, so their number is fuel enough. -/
def mergeFrom : Nat → List (Nat × Nat) → Nat → Graph → Except MarkupError Graph
  | 0, _, _, _ => .error .malformed
  | fuel + 1, found, i, g =>
    match g.takeMerge? i with
    | none => .ok (g.prepend i found)
    | some (v, g) =>
      match g.vertex v with
      | .mapping .. => do
        let g ← mergeFrom fuel [] v g
        mergeFrom fuel (found ++ g.entries v) i g
      | .sequence _ items => do
        let (g, parts) ← items.foldlM (fun (g, parts) item =>
          match g.vertex item with
          | .mapping .. => do
            let g ← mergeFrom fuel [] item g
            return (g, g.entries item :: parts)
          | _ => .error .malformed) (g, [])
        mergeFrom fuel (found ++ parts.flatten) i g
      | .scalar .. => .error .malformed

def mergeKeys (g : Graph) : Nat :=
  g.foldl (fun n v =>
    match v with
    | .mapping _ entries => n + entries.countP fun entry => (g.vertex entry.1).kind == .merge
    | _ => n) 0

/-- The graph with a mapping whose merge keys are resolved. -/
def merged (g : Graph) (i : Nat) : Except MarkupError Graph :=
  if (g.takeMerge? i).isNone then .ok (g.prepend i []) else mergeFrom (g.mergeKeys + 1) [] i g

end Walkthrough.Markup.Graph
