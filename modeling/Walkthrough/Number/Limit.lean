/-! The limit on digits. A whole number is read from decimal digits, or written in them, only if these
are not too many; other bases and doubles have no limit. -/
namespace Walkthrough

/-- The ways in which computing with values can fail. -/
inductive Fault where
  | numberTooLarge
  | tooManyDigits
  | digitWithoutValue
  | contextNotMap
  deriving DecidableEq, Repr

/-- The most digits of a whole number that is read or written. -/
def digitLimit : Nat := 4300

/-- What is read or written in so many digits, unless they are too many. -/
def unlessTooMany {α : Type} (digits : Nat) (a : α) : Except Fault α :=
  if digitLimit < digits then .error .tooManyDigits else .ok a

section UnlessTooMany

variable {α : Type} {digits : Nat} {a b : α} {f : Fault}

theorem unlessTooMany_eq_ok : unlessTooMany digits a = .ok b ↔ digits ≤ digitLimit ∧ a = b := by
  by_cases many : digitLimit < digits
  · simp [unlessTooMany, many, Nat.not_le.mpr many]
  · simp [unlessTooMany, many, Nat.not_lt.mp many]

theorem unlessTooMany_eq_error :
    unlessTooMany digits a = .error f ↔ digitLimit < digits ∧ f = .tooManyDigits := by
  by_cases many : digitLimit < digits
  · simp [unlessTooMany, many, eq_comm]
  · simp [unlessTooMany, many]

end UnlessTooMany

end Walkthrough
