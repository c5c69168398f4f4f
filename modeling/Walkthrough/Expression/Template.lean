import Walkthrough.Expression.Evaluator

/-! Text with placeholders. A placeholder begins with a dollar sign and a brace and ends at the
brace that closes it; braces inside quotes do not count. Text behind an opening that is never
closed is plain, whatever it holds. -/
namespace Walkthrough.Expression

def opening : List Char := ['$', '{']

/-- The inside of a placeholder and what follows it, seen from a depth of braces, an open quote and
the character before. A backslash keeps a quote from counting. -/
def closeHole (depth : Nat) (quote : Option Char) (before : Char) :
    List Char → Option (List Char × List Char)
  | [] => none
  | c :: cs =>
    let grow := Option.map fun (inner, rest) => (c :: inner, rest)
    if isQuote c && before != '\\' then
      let quote := if quote == some c then none else if quote.isNone then some c else quote
      grow (closeHole depth quote c cs)
    else if quote.isSome then grow (closeHole depth quote c cs)
    else if c == '{' then grow (closeHole (depth + 1) quote c cs)
    else if c == '}' then
      match depth with
      | 0 => some ([], cs)
      | outer + 1 => grow (closeHole outer quote c cs)
    else grow (closeHole depth quote c cs)

theorem closeHole_length {depth : Nat} {quote : Option Char} {before : Char}
    {cs inner rest : List Char} (h : closeHole depth quote before cs = some (inner, rest)) :
    rest.length < cs.length := by
  induction cs generalizing depth quote before inner with
  | nil => simp [closeHole] at h
  | cons c cs ih =>
    have step {depth quote} (h : (closeHole depth quote c cs).map
        (fun p => (c :: p.1, p.2)) = some (inner, rest)) : rest.length < cs.length + 1 := by
      obtain ⟨⟨i, r⟩, hr, he⟩ := Option.map_eq_some_iff.1 h
      simp only [Prod.mk.injEq] at he
      obtain ⟨-, rfl⟩ := he
      have := ih hr
      omega
    simp only [closeHole] at h
    split at h
    · exact step h
    · split at h
      · exact step h
      · split at h
        · exact step h
        · split at h
          · split at h
            · cases h
              simp
            · exact step h
          · exact step h

/-- A text as its placeholders, each with the plain text before it, and the plain text behind the
last. -/
structure Template where
  holes : List (List Char × List Char)
  tail : List Char
  deriving DecidableEq, Repr

def Template.ofText (cs : List Char) : Template :=
  match _h : Text.cutAt? opening cs with
  | none => ⟨[], cs⟩
  | some (before, behind) =>
    match _h' : closeHole 0 none '{' behind with
    | none => ⟨[], cs⟩
    | some (inner, rest) =>
      let more := ofText rest
      ⟨(before, inner) :: more.holes, more.tail⟩
termination_by cs.length
decreasing_by
  have := Text.cutAt?_length (by decide) _h
  have := closeHole_length _h'
  omega

/-- First and behind-last position of every placeholder. -/
def Template.spans (t : Template) : List (Nat × Nat) := go 0 t.holes
where
  go (position : Nat) : List (List Char × List Char) → List (Nat × Nat)
    | [] => []
    | (before, inner) :: rest =>
      let start := position + before.length
      let stop := start + inner.length + 3
      (start, stop) :: go stop rest

def placeholders (text : String) : List (Nat × Nat) := (Template.ofText text.toList).spans

/-- Plain text and the texts put for the placeholders, in order. -/
def Template.fill (t : Template) (f : List Char → Except Fault String) : Except Fault String := do
  let parts ← t.holes.mapM fun (before, inner) => (f inner).map (String.ofList before ++ ·)
  return "".intercalate parts ++ String.ofList t.tail

/-- Expands the placeholders of a text. A text that is one placeholder keeps the kind of its value;
otherwise values are shown as text, which fails for one that cannot be written. -/
def interpolateText (text : String) (context : Data) : Except Fault Data :=
  let template := Template.ofText text.toList
  match template with
  | ⟨[], _⟩ => .ok (.text text)
  | ⟨[([], inner)], []⟩ => .ok (evaluateText (String.ofList inner) context)
  | _ =>
    (template.fill fun inner => (evaluateText (String.ofList inner) context).display).map Value.text

def interpolate (text context : Data) : Except Fault Data :=
  match text with
  | .text s => interpolateText s context
  | v => .ok v

end Walkthrough.Expression
