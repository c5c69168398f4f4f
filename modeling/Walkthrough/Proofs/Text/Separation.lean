import Mathlib.Data.List.Infix
import Walkthrough.Text.Parts

/-! Parts of a text and the separator between them. Put together again the parts are the text,
whatever the separator; and parts that share no character with the separator are found again. -/
namespace Walkthrough.Text

variable {sep sep' cs as bs : List Char} {ps : List (List Char)} {c : Char}

theorem partsAfter_eq (sep : List Char) (skip : Nat) (cs : List Char) :
    partsAfter sep skip cs = partsOf sep (cs.drop skip) := by
  induction cs generalizing skip with
  | nil => cases skip <;> rfl
  | cons c cs ih =>
    cases skip with
    | zero => rfl
    | succ n => exact ih n

theorem partsOf_separator (some : sep ≠ []) (cs : List Char) :
    partsOf sep (sep ++ cs) = [] :: partsOf sep cs := by
  obtain ⟨d, ds, rfl⟩ := List.exists_cons_of_ne_nil some
  have here : (d :: ds).isPrefixOf (d :: (ds ++ cs)) = true :=
    List.isPrefixOf_iff_prefix.mpr ⟨cs, rfl⟩
  rw [partsOf, List.cons_append, partsAfter, if_pos here, partsAfter_eq]
  simp

theorem partsOf_cons (other : ¬sep <+: c :: cs) :
    partsOf sep (c :: cs) = growFirst c (partsOf sep cs) := by
  have elsewhere : ¬sep.isPrefixOf (c :: cs) = true := by rwa [List.isPrefixOf_iff_prefix]
  rw [partsOf, partsAfter, if_neg elsewhere, partsOf]

/-- A text goes on with its separator, which ends a part, or with a character of the part. -/
inductive Parted (sep : List Char) : List Char → List (List Char) → Prop where
  | nil : Parted sep [] [[]]
  | separator {cs : List Char} {ps : List (List Char)} (rest : Parted sep cs ps) :
      Parted sep (sep ++ cs) ([] :: ps)
  | cons {c : Char} {cs p : List Char} {ps : List (List Char)} (other : ¬sep <+: c :: cs)
      (rest : Parted sep cs (p :: ps)) : Parted sep (c :: cs) ((c :: p) :: ps)

namespace Parted

theorem ne_nil (parted : Parted sep cs ps) : ps ≠ [] := by
  cases parted <;> exact List.cons_ne_nil _ _

theorem intercalate_eq (parted : Parted sep cs ps) : sep.intercalate ps = cs := by
  induction parted with
  | nil => rfl
  | separator rest ih =>
    rw [List.intercalate_cons_of_ne_nil rest.ne_nil, ih]
    rfl
  | @cons c cs p ps other rest ih =>
    cases ps with
    | nil => simpa using ih
    | cons q qs => simpa [List.intercalate_cons_cons] using ih

/-- There is one part just when the separator occurs nowhere. -/
theorem length_eq_one_iff (parted : Parted sep cs ps) (some : sep ≠ []) :
    ps.length = 1 ↔ ¬sep <:+: cs := by
  induction parted with
  | nil => simpa using some
  | @separator cs ps rest ih =>
    have several : ps.length ≠ 0 := by simpa using rest.ne_nil
    have occurs : sep <:+: sep ++ cs := (List.prefix_append sep cs).isInfix
    simpa [occurs] using several
  | cons other rest ih =>
    rw [List.infix_cons_iff, not_or, ← ih]
    simp [other]

end Parted

theorem parted_partsOf (some : sep ≠ []) (cs : List Char) : Parted sep cs (partsOf sep cs) := by
  induction length : cs.length using Nat.strongRecOn generalizing cs with
  | ind n ih =>
    cases cs with
    | nil => exact .nil
    | cons c cs =>
      by_cases here : sep <+: c :: cs
      · obtain ⟨rest, text⟩ := here
        have shorter : rest.length < n := by
          have filled := List.length_pos_of_ne_nil some
          have total := congrArg List.length text
          rw [List.length_append, length] at total
          omega
        rw [← text, partsOf_separator some]
        exact .separator (ih _ shorter rest rfl)
      · have shorter : cs.length < n := by simp [← length]
        have later := ih _ shorter cs rfl
        rw [partsOf_cons here]
        obtain ⟨p, ps, parts⟩ := List.exists_cons_of_ne_nil later.ne_nil
        rw [parts] at later ⊢
        exact .cons here later

theorem intercalate_partsOf (some : sep ≠ []) (cs : List Char) :
    sep.intercalate (partsOf sep cs) = cs := (parted_partsOf some cs).intercalate_eq

theorem partsOf_eq_singleton_iff (some : sep ≠ []) : partsOf sep cs = [cs] ↔ ¬sep <:+: cs := by
  have parted := parted_partsOf some cs
  rw [← parted.length_eq_one_iff some]
  constructor
  · intro alone
    rw [alone, List.length_singleton]
  · intro one
    obtain ⟨p, alone⟩ := List.length_eq_one_iff.mp one
    have text := parted.intercalate_eq
    rw [alone, List.intercalate_singleton] at text
    rw [alone, text]

theorem not_prefix_of_apart (some : sep ≠ []) (apart : c ∉ sep) : ¬sep <+: c :: cs := by
  rintro ⟨rest, text⟩
  obtain ⟨d, ds, rfl⟩ := List.exists_cons_of_ne_nil some
  cases text
  exact apart List.mem_cons_self

theorem partsOf_append (some : sep ≠ []) (apart : ∀ c ∈ as, c ∉ sep) (bs : List Char) :
    partsOf sep (as ++ (sep ++ bs)) = as :: partsOf sep bs := by
  induction as with
  | nil => exact partsOf_separator some bs
  | cons c as ih =>
    obtain ⟨first, later⟩ := List.forall_mem_cons.mp apart
    rw [List.cons_append, partsOf_cons (not_prefix_of_apart some first), ih later]
    rfl

theorem partsOf_of_apart (some : sep ≠ []) (apart : ∀ c ∈ as, c ∉ sep) : partsOf sep as = [as] := by
  induction as with
  | nil => rfl
  | cons c as ih =>
    obtain ⟨first, later⟩ := List.forall_mem_cons.mp apart
    rw [partsOf_cons (not_prefix_of_apart some first), ih later]
    rfl

theorem partsOf_intercalate (some : sep ≠ []) (filled : ps ≠ [])
    (apart : ∀ p ∈ ps, ∀ c ∈ p, c ∉ sep) : partsOf sep (sep.intercalate ps) = ps := by
  induction ps with
  | nil => exact absurd rfl filled
  | cons p ps ih =>
    obtain ⟨first, later⟩ := List.forall_mem_cons.mp apart
    cases ps with
    | nil => rw [List.intercalate_singleton, partsOf_of_apart some first]
    | cons q qs =>
      rw [List.intercalate_cons_cons, List.append_assoc, partsOf_append some first,
        ih (List.cons_ne_nil q qs) later]

theorem length_intercalate (sep : List Char) (p : List Char) (ps : List (List Char)) :
    (sep.intercalate (p :: ps)).length = (p :: ps).flatten.length + ps.length * sep.length := by
  induction ps generalizing p with
  | nil => simp
  | cons q qs ih =>
    rw [List.intercalate_cons_cons, List.length_append, List.length_append, ih q]
    simp only [List.flatten_cons, List.length_append, List.length_cons, Nat.add_one_mul]
    omega

/-- Two parts or more show by which separator they were put together. -/
theorem intercalate_inj (several : 2 ≤ ps.length)
    (same : sep.intercalate ps = sep'.intercalate ps) : sep = sep' := by
  match ps, several with
  | p :: q :: qs, _ =>
    have lengths := congrArg List.length same
    rw [length_intercalate, length_intercalate, Nat.add_left_cancel_iff] at lengths
    have length : sep.length = sep'.length := Nat.eq_of_mul_eq_mul_left (by simp) lengths
    simp only [List.intercalate_cons_cons, List.append_assoc, List.append_cancel_left_eq] at same
    exact List.append_inj_left same length

end Walkthrough.Text
