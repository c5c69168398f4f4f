import Walkthrough.Proofs.Json.Scalars
import Walkthrough.Proofs.Number.Front
import Walkthrough.Proofs.Value.Overlong

/-! The limit on digits in JSON text. A number there is a whole one only if neither a fraction nor an
exponent stands behind its digits, and of those the scanner takes no more than the limit; so all that
is read from JSON can be written again. -/
namespace Walkthrough

namespace Text

theorem digitValue?_lt {c : Char} {d : Nat} (value : digitValue? c = some d) : d < 10 := by
  obtain ⟨z, found, rfl⟩ := Option.map_eq_some_iff.mp value
  have range : z ≤ c.toNat ∧ c.toNat ≤ z + 9 := by simpa using List.find?_some found
  omega

end Text

namespace Numeral

open Text

variable {cs : List Char} {base : Nat} {ds : List Nat} {negative : Bool} {k : Int}

theorem lt_of_mem_digitRun (cs : List Char) : ∀ d ∈ (digitRun cs).1, d < 10 := by
  induction cs with
  | nil => simp [digitRun]
  | cons c cs ih =>
    rw [digitRun]
    split
    · rename_i d value
      exact List.forall_mem_cons.mpr ⟨digitValue?_lt value, ih⟩
    · simp

/-- What is read before the digits counts as one more, so that it stays below a power as well. -/
theorem foldl_lt_pow (small : ∀ d ∈ ds, d < base) (n : Nat) :
    ds.foldl (fun n d => n * base + d) n < (n + 1) * Nat.pow base ds.length := by
  induction ds generalizing n with
  | nil => simp
  | cons d ds ih =>
    obtain ⟨first, others⟩ := List.forall_mem_cons.mp small
    have next : n * base + d + 1 ≤ (n + 1) * base := by
      rw [Nat.succ_mul]
      omega
    calc ds.foldl (fun n d => n * base + d) (n * base + d)
        < (n * base + d + 1) * Nat.pow base ds.length := ih others _
      _ ≤ (n + 1) * base * Nat.pow base ds.length := Nat.mul_le_mul_right _ next
      _ = (n + 1) * Nat.pow base (ds.length + 1) := by
        rw [Nat.mul_assoc, Nat.mul_comm base]
        rfl

theorem natOfDigits_lt_pow (small : ∀ d ∈ ds, d < base) :
    natOfDigits base ds < Nat.pow base ds.length := by
  simpa [natOfDigits] using foldl_lt_pow small 0

/-- A whole number has at most the digits that it is read from. -/
theorem digits_le_of_unsigned? (spells : unsigned? negative cs = some (.int k)) :
    (∀ c ∈ cs, isDecimal c = true) ∧ (Number.int k).digits ≤ cs.length := by
  obtain ⟨ds, rest, rfl, digits, -, ⟨some, rfl, same⟩ | ⟨d, ⟨⟩, -⟩⟩ := unsigned?_cases spells
  rw [List.append_nil]
  refine ⟨digits, ?_⟩
  have below := natOfDigits_lt_pow (lt_of_mem_digitRun ds)
  rw [length_digitRun digits] at below
  have size : k.natAbs = natOfDigits 10 (digitRun ds).1 := by
    rw [Number.int.inj same, signedInt]
    split
    · rw [Int.natAbs_neg, Int.natAbs_natCast]
    · rw [Int.natAbs_natCast]
  rw [Number.digits, size, Nat.length_toDigits_le_iff (by decide) (List.length_pos_of_ne_nil some)]
  exact below

end Numeral

namespace Json

open Numeral Text

variable {cs rest : List Char} {t : Token} {ts : List Token} {n : Number} {k : Int} {s : Scalar}

theorem point_of_fractionDigits : ∀ read ∈ fractionDigits cs, '.' ∈ read.1 := by
  fun_cases fractionDigits cs with
  | case1 | case3 => rintro read ⟨⟩
  | case2 rest =>
    rintro read ⟨⟩
    exact List.mem_cons_self

theorem letter_of_exponentDigits : ∀ read ∈ exponentDigits cs, 'e' ∈ read.1 := by
  fun_cases exponentDigits cs with
  | case1 | case3 | case4 => rintro read ⟨⟩
  | case2 =>
    rintro read ⟨⟩
    exact List.mem_append_left _ List.mem_cons_self

/-- A part that has a mark of its own is not there where all characters are digits. -/
theorem eq_none_of_decimals {part : Option (List Char × List Char)} {c : Char}
    (other : isDecimal c = false) (mark : ∀ read ∈ part, c ∈ read.1)
    (decimals : ∀ d ∈ (part.getD ([], cs)).1, isDecimal d = true) : part = none := by
  cases part with
  | none => rfl
  | some read => exact absurd (decimals c (mark read rfl)) (by simp [other])

/-- What is left of a number without its sign. -/
def Unsigned (cs body : List Char) : Prop := cs = '-' :: body ∨ (cs.head? ≠ some '-' ∧ body = cs)

/-- The digits in front, of which there are several only if the first is no zero. -/
def WholeDigits (body whole : List Char) : Prop :=
  whole = ['0'] ∨ (body.head? ≠ some '0' ∧ whole = body.takeWhile isDigit)

theorem exists_pieces_of_number? (reads : number? cs = some (n, rest)) :
    ∃ negative body whole, Unsigned cs body ∧ WholeDigits body whole ∧
      let behind := body.drop whole.length
      let fraction := (fractionDigits behind).getD ([], behind)
      let power := (exponentDigits fraction.2).getD ([], fraction.2)
      unsigned? negative (whole ++ fraction.1 ++ power.1) = some n := by
  fun_cases number? cs with
  | case1 negative body front whole none_ =>
    unfold number? at reads
    rw [front] at reads
    dsimp only at reads
    rw [if_pos none_] at reads
    cases reads
  | case2 negative body front whole some_ more fraction behind fractional power tail powered =>
    unfold number? at reads
    rw [front] at reads
    dsimp only at reads
    rw [if_neg some_] at reads
    obtain ⟨m, spells, same⟩ := Option.map_eq_some_iff.mp reads
    cases same
    refine ⟨negative, body, whole, ?_, ?_, spells⟩
    · split at front
      · cases front
        exact .inl rfl
      · rename_i plain
        cases front
        refine .inr ⟨fun first => ?_, rfl⟩
        obtain ⟨ds, text⟩ := List.head?_eq_some_iff.mp first
        exact plain ds text
    · clear spells reads
      unfold whole
      split
      · exact .inl rfl
      · rename_i nonzero
        refine .inr ⟨fun first => ?_, rfl⟩
        obtain ⟨ds, text⟩ := List.head?_eq_some_iff.mp first
        exact nonzero ds text

/-- Digits with nothing behind them that makes a double of the number are limited. -/
theorem length_le_of_not_startsTooLong {body whole : List Char} (short : startsTooLong cs = false)
    (front : Unsigned cs body) (digits : WholeDigits body whole)
    (noFraction : fractionDigits (body.drop whole.length) = none)
    (noExponent : exponentDigits (body.drop whole.length) = none) : whole.length ≤ digitLimit := by
  have several : startsTooLong cs = (digitLimit < (body.takeWhile isDigit).length &&
      (body.takeWhile isDigit).head? != some '0' &&
      (fractionDigits (body.dropWhile isDigit)).isNone &&
      (exponentDigits (body.dropWhile isDigit)).isNone) := by
    unfold startsTooLong
    rcases front with rfl | ⟨plain, rfl⟩
    · rfl
    · split
      · cases plain rfl
      · rfl
  rcases digits with rfl | ⟨nonzero, rfl⟩
  · decide
  · have behind : (body.takeWhile isDigit ++ body.dropWhile isDigit).drop
        (body.takeWhile isDigit).length = body.dropWhile isDigit := List.drop_left
    rw [List.takeWhile_append_dropWhile] at behind
    have first : (body.takeWhile isDigit).head? ≠ some '0' := by
      cases body with
      | nil => simp
      | cons c more =>
        rw [List.takeWhile_cons]
        split
        · exact nonzero
        · simp
    rw [behind] at noFraction noExponent
    rw [several, noFraction, noExponent] at short
    simpa [first] using short

theorem digits_le_of_number? (reads : number? cs = some (.int k, rest))
    (short : startsTooLong cs = false) : (Number.int k).digits ≤ digitLimit := by
  obtain ⟨negative, body, whole, front, digits, spells⟩ := exists_pieces_of_number? reads
  obtain ⟨decimals, fits⟩ := digits_le_of_unsigned? spells
  simp only [List.forall_mem_append] at decimals
  obtain ⟨⟨-, fractions⟩, powers⟩ := decimals
  have noFraction := eq_none_of_decimals (by decide) point_of_fractionDigits fractions
  simp only [noFraction, Option.getD_none] at powers fits
  have noExponent := eq_none_of_decimals (by decide) letter_of_exponentDigits powers
  simp only [noExponent, Option.getD_none, List.append_nil] at fits
  exact fits.trans (length_le_of_not_startsTooLong short front digits noFraction noExponent)

theorem not_overlong_of_token? (reads : token? cs = some (t, rest)) (told : t.scalar? = some s) :
    ¬s.Overlong := by
  unfold token? at reads
  split at reads
  case h_1 => cases reads
  case h_2 | h_3 | h_4 | h_5 | h_6 | h_7 =>
    cases reads
    cases told
  case h_8 more =>
    obtain ⟨⟨out, tail⟩, -, same⟩ := Option.map_eq_some_iff.mp reads
    cases same
    cases told
    exact id
  case h_9 =>
    split at reads
    · rename_i named
      cases reads
      cases told
      obtain ⟨⟨name, s⟩, listed, found⟩ := List.exists_of_findSome?_eq_some named
      obtain ⟨more, -, same⟩ := Option.map_eq_some_iff.mp found
      cases same
      have all : ∀ entry ∈ names, ¬entry.2.Overlong := by
        simp [names, Scalar.Overlong, Number.digits, Number.nan]
      exact all _ listed
    · split at reads
      · cases reads
      · rename_i short
        obtain ⟨⟨n, more⟩, number, same⟩ := Option.map_eq_some_iff.mp reads
        cases same
        cases told
        cases n with
        | double d => exact Nat.not_lt_zero _
        | int k => exact Nat.not_lt.mpr (digits_le_of_number? number (Bool.eq_false_iff.mpr short))

theorem not_overlong_of_tokensWithin {fuel : Nat} (reads : tokensWithin fuel cs = some ts) :
    ∀ t ∈ ts, ∀ s, t.scalar? = some s → ¬s.Overlong := by
  induction fuel generalizing cs ts with
  | zero =>
    rw [tokensWithin] at reads
    split at reads <;> cases reads
    simp
  | succ fuel ih =>
    rw [tokensWithin] at reads
    split at reads
    · cases reads
      simp
    · simp only [Option.bind_eq_bind, Option.bind_eq_some_iff] at reads
      obtain ⟨⟨t, tail⟩, first, ts, others, same⟩ := reads
      cases same
      exact List.forall_mem_cons.mpr ⟨fun s told => not_overlong_of_token? first told, ih others⟩

/-- No whole number that is read from JSON has too many digits to be written. -/
theorem not_overlong_of_read? {text : String} {v : Data} (reads : read? text = some v)
    (inside : s ∈ v.scalars) : ¬s.Overlong := by
  obtain ⟨ts, tokens, value⟩ := Option.bind_eq_some_iff.mp reads
  obtain ⟨t, there, told⟩ := exists_of_mem_scalars value inside
  exact not_overlong_of_tokensWithin tokens t there s told

end Json

end Walkthrough
