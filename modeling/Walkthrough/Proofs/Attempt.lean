import Mathlib.Data.List.Forall2

/-! What a sequence of attempts comes to: it succeeds with what its steps succeed with, and fails
with the first step that fails. -/
namespace Walkthrough

section Attempt

variable {ε α β : Type} {x : Except ε α} {f : α → Except ε β} {b : β} {e : ε}

theorem eq_ok_of_toOption {a : α} (h : x.toOption = some a) : x = .ok a := by
  cases x with
  | error e => cases h
  | ok a' =>
    cases h
    rfl

theorem bind_eq_ok : (x >>= f) = .ok b ↔ ∃ a, x = .ok a ∧ f a = .ok b := by
  cases x with
  | error e => exact ⟨nofun, nofun⟩
  | ok a =>
    constructor
    · intro h
      exact ⟨a, rfl, h⟩
    · rintro ⟨_, ⟨⟩, h⟩
      exact h

theorem bind_eq_error : (x >>= f) = .error e ↔ x = .error e ∨ ∃ a, x = .ok a ∧ f a = .error e := by
  cases x with
  | error e' =>
    constructor
    · rintro ⟨⟩
      exact .inl rfl
    · rintro (⟨⟨⟩⟩ | ⟨_, ⟨⟩, -⟩)
      rfl
  | ok a =>
    constructor
    · intro h
      exact .inr ⟨a, rfl, h⟩
    · rintro (⟨⟨⟩⟩ | ⟨_, ⟨⟩, h⟩)
      exact h

theorem pure_ne_error {a : α} : (pure a : Except ε α) ≠ .error e := nofun

theorem map_eq_ok {g : α → β} : x.map g = .ok b ↔ ∃ a, x = .ok a ∧ g a = b := by
  cases x with
  | error => simp [Except.map]
  | ok a => simp [Except.map]

theorem map_eq_error {g : α → β} : g <$> x = .error e ↔ x = .error e := by
  cases x with
  | error e' => exact ⟨fun h => congrArg Except.error (Except.error.inj h),
      fun h => congrArg Except.error (Except.error.inj h)⟩
  | ok a => exact ⟨nofun, nofun⟩

theorem mapError_eq_ok {δ : Type} {g : ε → δ} {a : α} : x.mapError g = .ok a ↔ x = .ok a := by
  cases x with
  | error => exact ⟨nofun, nofun⟩
  | ok a' => exact ⟨fun h => congrArg Except.ok (Except.ok.inj h),
      fun h => congrArg Except.ok (Except.ok.inj h)⟩

variable {xs : List α} {ys : List β}

theorem mapM_eq_ok : xs.mapM f = .ok ys ↔ List.Forall₂ (fun x y => f x = .ok y) xs ys := by
  induction xs generalizing ys with
  | nil =>
    rw [List.mapM_nil, List.forall₂_nil_left_iff]
    constructor
    · rintro ⟨⟩
      rfl
    · rintro rfl
      rfl
  | cons x xs ih =>
    rw [List.mapM_cons, bind_eq_ok]
    constructor
    · rintro ⟨y, head, rest⟩
      obtain ⟨ys, tail, same⟩ := bind_eq_ok.mp rest
      cases same
      exact .cons head (ih.mp tail)
    · rintro (_ | ⟨head, tail⟩)
      exact ⟨_, head, bind_eq_ok.mpr ⟨_, ih.mpr tail, rfl⟩⟩

/-- The first element that fails is behind elements that do not. -/
theorem mapM_eq_error : xs.mapM f = .error e ↔ ∃ before x after, xs = before ++ x :: after ∧
    (∃ ys, before.mapM f = .ok ys) ∧ f x = .error e := by
  induction xs with
  | nil =>
    refine ⟨nofun, ?_⟩
    rintro ⟨before, x, after, whole, -⟩
    cases before <;> cases whole
  | cons x xs ih =>
    rw [List.mapM_cons, bind_eq_error]
    constructor
    · rintro (here | ⟨y, head, rest⟩)
      · exact ⟨[], x, xs, rfl, ⟨[], rfl⟩, here⟩
      · obtain later | ⟨ys, -, impossible⟩ := bind_eq_error.mp rest
        · obtain ⟨before, z, after, rfl, ⟨ys, read⟩, there⟩ := ih.mp later
          refine ⟨x :: before, z, after, rfl, ⟨y :: ys, ?_⟩, there⟩
          rw [List.mapM_cons]
          exact bind_eq_ok.mpr ⟨y, head, bind_eq_ok.mpr ⟨ys, read, rfl⟩⟩
        · cases impossible
    · rintro ⟨before, z, after, whole, ⟨ys, read⟩, there⟩
      cases before with
      | nil =>
        cases whole
        exact .inl there
      | cons w before =>
        cases whole
        rw [List.mapM_cons] at read
        obtain ⟨y, head, rest⟩ := bind_eq_ok.mp read
        obtain ⟨ys', tail, -⟩ := bind_eq_ok.mp rest
        exact .inr ⟨y, head,
          bind_eq_error.mpr (.inl (ih.mpr ⟨before, z, after, rfl, ⟨ys', tail⟩, there⟩))⟩

theorem exists_map_eq_error {g : α → β} : (∃ e, x.map g = .error e) ↔ ∃ e, x = .error e := by
  cases x with
  | error e => exact iff_of_true ⟨e, rfl⟩ ⟨e, rfl⟩
  | ok a => exact iff_of_false nofun nofun

/-- What two attempts are put together to fails if one of them does. -/
theorem exists_both_eq_error {γ : Type} {y : Except ε β} {g : α → β → γ} :
    (∃ e, (do let a ← x; let b ← y; return g a b) = .error e) ↔
      (∃ e, x = .error e) ∨ ∃ e, y = .error e := by
  cases x with
  | error e => exact iff_of_true ⟨e, rfl⟩ (.inl ⟨e, rfl⟩)
  | ok a =>
    cases y with
    | error e => exact iff_of_true ⟨e, rfl⟩ (.inr ⟨e, rfl⟩)
    | ok b => exact iff_of_false nofun (not_or.mpr ⟨nofun, nofun⟩)

theorem exists_mapM_eq_error :
    (∃ e, xs.mapM f = .error e) ↔ ∃ x ∈ xs, ∃ e, f x = .error e := by
  induction xs with
  | nil => exact ⟨nofun, nofun⟩
  | cons x xs ih => rw [List.mapM_cons, exists_both_eq_error, List.exists_mem_cons_iff, ih]

end Attempt

end Walkthrough
