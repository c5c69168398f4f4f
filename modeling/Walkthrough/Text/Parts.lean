/-! Parts of a text between occurrences of a separator. Occurrences are taken from the left and do
not overlap. -/
namespace Walkthrough.Text

/-- Adds a character to the first part. -/
def growFirst (c : Char) : List (List Char) → List (List Char)
  | [] => [[c]]
  | first :: rest => (c :: first) :: rest

/-- The parts of a text of which the first `skip` characters belong to a separator. -/
def partsAfter (sep : List Char) (skip : Nat) : List Char → List (List Char)
  | [] => [[]]
  | c :: cs =>
    match skip with
    | n + 1 => partsAfter sep n cs
    | 0 =>
      if sep.isPrefixOf (c :: cs) then [] :: partsAfter sep (sep.length - 1) cs
      else growFirst c (partsAfter sep 0 cs)

/-- The parts of a text between separators; there is one part more than separators. The separator
is not empty. -/
def partsOf (sep cs : List Char) : List (List Char) := partsAfter sep 0 cs

def split (sep s : String) : List String := (partsOf sep.toList s.toList).map String.ofList

/-- What stands before and behind the first occurrence of a text. -/
def cutAt? (needle : List Char) : List Char → Option (List Char × List Char)
  | [] => if needle.isEmpty then some ([], []) else none
  | c :: cs =>
    if needle.isPrefixOf (c :: cs) then some ([], (c :: cs).drop needle.length)
    else (cutAt? needle cs).map fun (before, behind) => (c :: before, behind)

def occursIn (needle cs : List Char) : Bool := (cutAt? needle cs).isSome

theorem cutAt?_length {needle cs before behind : List Char} (positive : needle ≠ [])
    (h : cutAt? needle cs = some (before, behind)) : behind.length < cs.length := by
  induction cs generalizing before with
  | nil =>
    simp only [cutAt?] at h
    split at h
    · next he => exact absurd (List.isEmpty_iff.1 he) positive
    · simp at h
  | cons c cs ih =>
    simp only [cutAt?] at h
    split at h
    · cases h
      have : 0 < needle.length := List.length_pos_iff.2 positive
      simp only [List.length_drop, List.length_cons]
      omega
    · obtain ⟨⟨b, r⟩, hr, he⟩ := Option.map_eq_some_iff.1 h
      simp only [Prod.mk.injEq] at he
      obtain ⟨rfl, rfl⟩ := he
      have := ih hr
      simp only [List.length_cons]
      omega

end Walkthrough.Text
