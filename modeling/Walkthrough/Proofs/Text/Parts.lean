import Mathlib.Data.List.Infix
import Mathlib.Data.List.TakeWhile
import Walkthrough.Text.Blank
import Walkthrough.Text.Parts

/-! What cutting and trimming leave of a text. Neither loses anything but what is cut at and white
space at the ends, and there is a cut just when there is an occurrence. -/
namespace Walkthrough.Text

variable {needle cs before behind : List Char} {c : Char}

theorem eq_of_cutAt? (cut : cutAt? needle cs = some (before, behind)) :
    cs = before ++ needle ++ behind := by
  induction cs generalizing before with
  | nil =>
    rw [cutAt?] at cut
    split at cut
    · rename_i empty
      cases cut
      simpa using empty
    · cases cut
  | cons c cs ih =>
    rw [cutAt?] at cut
    split at cut
    · rename_i front
      cases cut
      exact (List.prefix_iff_eq_append.mp (List.isPrefixOf_iff_prefix.mp front)).symm
    · obtain ⟨⟨before', behind'⟩, later, same⟩ := Option.map_eq_some_iff.mp cut
      cases same
      rw [ih later]
      rfl

theorem occursIn_iff : occursIn needle cs = true ↔ needle <:+: cs := by
  constructor
  · intro occurs
    obtain ⟨⟨before, behind⟩, cut⟩ := Option.isSome_iff_exists.mp occurs
    exact ⟨before, behind, (eq_of_cutAt? cut).symm⟩
  · intro inside
    induction cs with
    | nil =>
      obtain rfl : needle = [] := List.infix_nil.mp inside
      rfl
    | cons c cs ih =>
      rw [occursIn, cutAt?]
      split
      · rfl
      · rename_i other
        have later : needle <:+: cs := by
          refine (List.infix_cons_iff.mp inside).resolve_left fun front => other ?_
          exact List.isPrefixOf_iff_prefix.mpr front
        rw [Option.isSome_map]
        exact ih later

theorem not_prefix_of_cutAt?_none (uncut : cutAt? needle cs = none) (i : Nat) :
    ¬needle <+: cs.drop i := by
  intro front
  have occurs : occursIn needle cs = true :=
    occursIn_iff.mpr (front.isInfix.trans (List.drop_suffix i cs).isInfix)
  rw [occursIn, uncut] at occurs
  cases occurs

/-- A text is cut at the first occurrence. -/
theorem not_prefix_of_cutAt? (cut : cutAt? needle cs = some (before, behind)) {i : Nat}
    (earlier : i < before.length) : ¬needle <+: cs.drop i := by
  induction cs generalizing before i with
  | nil =>
    rw [cutAt?] at cut
    split at cut
    · cases cut
      cases earlier
    · cases cut
  | cons c cs ih =>
    rw [cutAt?] at cut
    split at cut
    · cases cut
      cases earlier
    · rename_i other
      obtain ⟨⟨before', behind'⟩, later, same⟩ := Option.map_eq_some_iff.mp cut
      cases same
      cases i with
      | zero => exact fun front => other (List.isPrefixOf_iff_prefix.mpr front)
      | succ i => exact ih later (Nat.lt_of_succ_lt_succ earlier)

theorem exists_trim (cs : List Char) :
    ∃ gap, cs.dropWhile isBlank = trim cs ++ gap ∧ ∀ c ∈ gap, isBlank c = true := by
  refine ⟨((cs.dropWhile isBlank).reverse.takeWhile isBlank).reverse, ?_, fun c inside => ?_⟩
  · rw [trim, trimWhere, ← List.reverse_append, List.takeWhile_append_dropWhile,
      List.reverse_reverse]
  · exact List.mem_takeWhile_imp (List.mem_reverse.mp inside)

theorem mem_of_mem_trim (inside : c ∈ trim cs) : c ∈ cs := by
  obtain ⟨gap, whole, -⟩ := exists_trim cs
  have kept : c ∈ cs.dropWhile isBlank := whole ▸ List.mem_append_left gap inside
  exact (List.dropWhile_sublist _).mem kept

end Walkthrough.Text
