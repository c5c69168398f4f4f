import Walkthrough.Proofs.Number.Decimal
import Walkthrough.Proofs.Number.Shortest

/-! Plain notation of doubles is read back. The digits before and behind the point make up the
digits of the shortest decimal again, and the exponent is what the point and the power leave of it. -/
namespace Walkthrough

namespace Numeral

open Text

variable {negative : Bool} {whole frac tail : List Char}

theorem stops_at {d : Char} (stop : digitValue? d = none) (rest : List Char) :
    ∀ c ∈ (d :: rest).head?, digitValue? c = none := by
  intro c head
  cases head
  exact stop

theorem unsigned?_of_point (some : whole ≠ []) (digits : ∀ c ∈ whole ++ frac, c ∈ asciiDigits)
    (stop : ∀ c ∈ tail.head?, digitValue? c = none) :
    unsigned? negative (whole ++ '.' :: (frac ++ tail)) = (exponent? tail).map fun e =>
      .double (Double.ofDecimal negative (Nat.ofDigitChars 10 (whole ++ frac) 0) (e - frac.length)) := by
  obtain ⟨front, behind⟩ := List.forall_mem_append.mp digits
  obtain ⟨c, rest, rfl⟩ := List.exists_cons_of_ne_nil some
  rw [← natOfDigits_of_digits, unsigned?, digitRun_append front (stops_at (by decide) _)]
  simp only [List.map_cons, digitRun_append behind stop, List.map_append, List.length_map,
    List.cons_append]

theorem unsigned?_of_power (some : whole ≠ []) (digits : ∀ c ∈ whole, c ∈ asciiDigits) :
    unsigned? negative (whole ++ 'e' :: tail) = (exponent? ('e' :: tail)).map fun e =>
      .double (Double.ofDecimal negative (Nat.ofDigitChars 10 whole 0) e) := by
  obtain ⟨c, rest, rfl⟩ := List.exists_cons_of_ne_nil some
  rw [← natOfDigits_of_digits, unsigned?, digitRun_append digits (stops_at (by decide) _)]
  rfl

def powerSign (e : Int) : Char := if e < 0 then '-' else '+'

/-- The sign and the digits of a power. -/
def powerText (e : Int) : List Char := powerSign e :: Nat.toDigits 10 e.natAbs

/-- A digit in front and only these characters. -/
structure Spelled (allowed cs : List Char) : Prop where
  front : ∃ c rest, cs = c :: rest ∧ c ∈ asciiDigits
  all : ∀ c ∈ cs, c ∈ allowed

theorem Spelled.mono {allowed more cs : List Char} (spelled : Spelled allowed cs)
    (subset : ∀ c ∈ allowed, c ∈ more) : Spelled more cs :=
  ⟨spelled.front, fun c inside => subset c (spelled.all c inside)⟩

theorem exponent?_of_sign {cs : List Char} {n : Nat}
    (sign : splitSign cs = (negative, Nat.toDigits 10 n)) :
    exponent? ('e' :: cs) = some (signedInt negative n) := by
  have digits : ∀ c ∈ Nat.toDigits 10 n, c ∈ asciiDigits := fun c inside => mem_toDigits inside
  have value : natOfDigits 10 ((Nat.toDigits 10 n).map fun c => c.toNat - 48) = n := by
    rw [natOfDigits_of_digits, Nat.ofDigitChars_toDigits (by decide) (by decide)]
  have run := digitRun_of_digits digits
  obtain ⟨c, rest, text⟩ := List.exists_cons_of_ne_nil (Nat.toDigits_ne_nil (b := 10) (n := n))
  rw [text, List.map_cons] at run value
  rw [text] at sign
  simp [exponent?, sign, run, value]

theorem exponent?_powerText (e : Int) : exponent? ('e' :: powerText e) = some e := by
  by_cases behind : e < 0
  · have sign : splitSign (powerText e) = (true, Nat.toDigits 10 e.natAbs) := by
      rw [powerText, powerSign, if_pos behind]
      rfl
    rw [exponent?_of_sign sign, signedInt, if_pos rfl, Int.ofNat_natAbs_of_nonpos (Int.le_of_lt behind),
      Int.neg_neg]
  · have sign : splitSign (powerText e) = (false, Nat.toDigits 10 e.natAbs) := by
      rw [powerText, powerSign, if_neg behind]
      rfl
    rw [exponent?_of_sign sign, signedInt, if_neg (by decide),
      Int.natAbs_of_nonneg (Int.not_lt.mp behind)]

end Numeral

namespace Decimal

open Numeral

variable {negative : Bool} {d : Decimal}

/-- The point stands before as many of the digits as the exponent says, zeros being added in front
where these are too few. -/
theorem exists_positional (behind : d.exponent < 0) : ∃ whole frac,
    d.positional = whole ++ '.' :: frac ∧ whole ≠ [] ∧ (∀ c ∈ whole ++ frac, c ∈ asciiDigits) ∧
      Nat.ofDigitChars 10 (whole ++ frac) 0 = d.digits ∧ d.exponent = -frac.length := by
  have value := Nat.ofDigitChars_toDigits (b := 10) (n := d.digits) (by decide) (by decide)
  have digits : ∀ c ∈ Nat.toDigits 10 d.digits, c ∈ asciiDigits := fun c inside => mem_toDigits inside
  rw [positional, spread]
  generalize Nat.toDigits 10 d.digits = cs at value digits
  simp only
  split
  · -- the value is below one: the digits and all zeros in front of them are behind the point
    refine ⟨['0'], List.replicate _ '0' ++ cs, rfl, by simp, fun c inside => ?_, ?_, ?_⟩
    · simp only [List.mem_append, List.mem_singleton, List.mem_replicate] at inside
      rcases inside with rfl | ⟨-, rfl⟩ | inside
      · decide
      · decide
      · exact digits c inside
    · rw [Nat.ofDigitChars_append, Nat.ofDigitChars_append, Nat.ofDigitChars_replicate_zero]
      exact value
    · rw [List.length_append, List.length_replicate]
      omega
  · -- no zeros are added behind the digits, since the exponent is negative
    rename_i before
    rw [if_neg (by omega)]
    refine ⟨_, _, rfl, ?_, ?_, ?_, ?_⟩
    · rw [Ne, List.take_eq_nil_iff]
      rintro (none | rfl)
      · omega
      · simp at before
        omega
    · rwa [List.take_append_drop]
    · rwa [List.take_append_drop]
    · rw [List.length_drop]
      omega

theorem unsigned?_positional (behind : d.exponent < 0) :
    unsigned? negative d.positional = some (.double (Double.ofDecimal negative d.digits d.exponent)) := by
  obtain ⟨whole, frac, text, some, digits, value, place⟩ := exists_positional behind
  have stop : ∀ c ∈ ([] : List Char).head?, Text.digitValue? c = none := by simp
  have read : unsigned? negative (whole ++ '.' :: (frac ++ [])) = _ := unsigned?_of_point some digits stop
  rw [List.append_nil] at read
  rw [text, read, exponent?, value, place, Option.map_some, Int.zero_sub]

/-- The first digit, the others behind a point if there are any, and the power of the first. -/
theorem scientific_eq {c : Char} {cs : List Char} (text : Nat.toDigits 10 d.digits = c :: cs) :
    d.scientific 1 = (if cs = [] then [c] else c :: '.' :: cs) ++ 'e' :: powerText d.spread.2 := by
  have unpadded : 1 - (Nat.toDigits 10 d.spread.2.natAbs).length = 0 :=
    Nat.sub_eq_zero_of_le Nat.length_toDigits_pos
  rw [scientific, spread, text]
  rw [spread, text] at unpadded
  simp only at unpadded ⊢
  rw [unpadded, powerText]
  cases cs <;> rfl

theorem unsigned?_scientific : unsigned? negative (d.scientific 1) =
    some (.double (Double.ofDecimal negative d.digits d.exponent)) := by
  have value := Nat.ofDigitChars_toDigits (b := 10) (n := d.digits) (by decide) (by decide)
  have digits : ∀ c ∈ Nat.toDigits 10 d.digits, c ∈ asciiDigits := fun c inside => mem_toDigits inside
  obtain ⟨c, cs, text⟩ := List.exists_cons_of_ne_nil (Nat.toDigits_ne_nil (b := 10) (n := d.digits))
  rw [scientific_eq text]
  rw [spread, text]
  rw [text] at value digits
  split
  · rename_i alone
    subst alone
    rw [unsigned?_of_power (by simp) digits, exponent?_powerText, Option.map_some, value]
    simp
  · change unsigned? negative ([c] ++ '.' :: (cs ++ 'e' :: powerText _)) = _
    rw [unsigned?_of_point (by simp) digits (stops_at (by decide) _), exponent?_powerText,
      Option.map_some]
    have front : Nat.ofDigitChars 10 ([c] ++ cs) 0 = d.digits := value
    have place : d.exponent + (c :: cs).length - 1 - cs.length = d.exponent := by
      rw [List.length_cons]
      omega
    rw [front, place]

theorem spelled_positional (behind : d.exponent < 0) : Spelled figures d.positional := by
  obtain ⟨whole, frac, text, some, digits, -⟩ := exists_positional behind
  obtain ⟨c, rest, rfl⟩ := List.exists_cons_of_ne_nil some
  rw [text]
  refine ⟨⟨c, _, rfl, digits c List.mem_cons_self⟩, fun d inside => ?_⟩
  rcases List.mem_append.mp inside with inside | inside
  · exact mem_figures_of_digit (digits d (List.mem_append_left _ inside))
  · rcases List.mem_cons.mp inside with rfl | inside
    · decide
    · exact mem_figures_of_digit (digits d (List.mem_append_right _ inside))

/-- The power is written behind characters that it shares no sign with. -/
theorem exists_scientific : ∃ front, d.scientific 1 = front ++ powerText d.spread.2 ∧
    Spelled figures front := by
  obtain ⟨c, cs, text⟩ := List.exists_cons_of_ne_nil (Nat.toDigits_ne_nil (b := 10) (n := d.digits))
  have digits : ∀ e ∈ c :: cs, e ∈ asciiDigits := fun e inside => mem_toDigits (text ▸ inside)
  obtain ⟨rest, mantissa, inside⟩ : ∃ rest, (if cs = [] then [c] else c :: '.' :: cs) = c :: rest ∧
      ∀ e ∈ rest, e = '.' ∨ e ∈ cs := by
    split
    · exact ⟨[], rfl, by simp⟩
    · exact ⟨'.' :: cs, rfl, fun e => List.mem_cons.mp⟩
  refine ⟨c :: rest ++ ['e'], ?_, ⟨c, rest ++ ['e'], rfl, digits c List.mem_cons_self⟩, fun e within => ?_⟩
  · rw [scientific_eq text, mantissa, List.append_assoc]
    rfl
  · rw [List.mem_append, List.mem_cons, List.mem_singleton] at within
    rcases within with (rfl | within) | rfl
    · exact mem_figures_of_digit (digits _ List.mem_cons_self)
    · rcases inside e within with rfl | within
      · decide
      · exact mem_figures_of_digit (digits e (List.mem_cons_of_mem c within))
    · decide

theorem spelled_scientific : Spelled (powerSign d.spread.2 :: figures) (d.scientific 1) := by
  obtain ⟨front, text, ⟨c, rest, rfl, digit⟩, all⟩ := d.exists_scientific
  rw [text]
  refine ⟨⟨c, _, rfl, digit⟩, fun e inside => ?_⟩
  rcases List.mem_append.mp inside with inside | inside
  · exact List.mem_cons_of_mem _ (all e inside)
  · rcases List.mem_cons.mp inside with rfl | inside
    · exact List.mem_cons_self
    · exact List.mem_cons_of_mem _ (mem_figures_of_digit (mem_toDigits inside))

end Decimal

namespace Number

theorem equals_self {n : Number} (number : n.isNaN = false) : n.equals n = true := by
  cases place : n.position? with
  | none => simp [isNaN, place] at number
  | some p => simp [equals, place]

theorem isNaN_double (d : Double) : (Number.double d).isNaN = d.isNaN := by
  rw [isNaN, position?]
  cases d.isNaN <;> cases d.isInfinite <;> rfl

end Number

namespace Double

open Numeral

/-- How a number is shown. -/
inductive Shown (d : Double) : String → Prop
  | infinite (infinite : d.isInfinite = true) : Shown d (d.signed infinityWord)
  | whole {n : Int} (whole : d.toInt? = some n) (small : n.natAbs < 10 ^ 21) : Shown d (toString n)
  | fraction (finite : d.isFinite = true) (fraction : d.toInt? = none) :
    Shown d (d.signed d.shortest.positional)
  | tiny (finite : d.isFinite = true) (fraction : d.toInt? = none)
    (small : d.shortest.spread.2 < 0) : Shown d (d.signed (d.shortest.scientific 1))
  | vast (vast : d.Vast) : Shown d (d.signed (d.shortest.scientific 1))

variable {d : Double}

theorem units_of_whole {n : Int} (whole : d.toInt? = some n) :
    d.isFinite = true ∧ d.units = n * unitsInOne := by
  rw [toInt?] at whole
  split at whole
  · rename_i exact_
    simp only [Bool.and_eq_true, beq_iff_eq] at exact_
    have quotient := Option.some.inj whole
    exact ⟨exact_.1, by rw [← quotient, Int.ediv_mul_cancel (Int.dvd_of_emod_eq_zero exact_.2)]⟩
  · cases whole

theorem vast_iff_of_whole {n : Int} (whole : d.toInt? = some n) : d.Vast ↔ 10 ^ 21 ≤ n.natAbs := by
  obtain ⟨finite, units⟩ := units_of_whole whole
  rw [Vast, units, Int.natAbs_mul, Int.natAbs_natCast]
  constructor
  · rintro ⟨-, large⟩
    exact Nat.le_of_mul_le_mul_right large unitsInOne_pos
  · intro large
    exact ⟨finite, Nat.mul_le_mul_right _ large⟩

theorem shown_plainText (number : d.isNaN = false) : Shown d d.plainText := by
  rw [plainText, if_neg (by simp [number])]
  split
  · rename_i infinite
    exact .infinite infinite
  · rename_i bounded
    have finite : d.isFinite = true := by simp [isFinite, number, bounded]
    simp only
    split
    · rename_i n whole
      split
      · rename_i small
        exact .whole whole small
      · rename_i large
        exact .vast ((vast_iff_of_whole whole).mpr (Nat.not_lt.mp large))
    · rename_i fraction
      split
      · exact .fraction finite fraction
      · rename_i outside
        have places := places_of_fraction finite fraction
        refine .tiny finite fraction ?_
        simp only [Bool.and_eq_true, decide_eq_true_eq] at outside
        omega

theorem equals_whole {n : Int} (whole : d.toInt? = some n) :
    (Number.int n).equals (.double d) = true := by
  obtain ⟨finite, units⟩ := units_of_whole whole
  simp only [isFinite, Bool.and_eq_true, Bool.not_eq_true'] at finite
  simp only [Number.equals, Number.position?, finite, units, Bool.false_eq_true, ↓reduceIte,
    beq_self_eq_true]

theorem spelled?_signed {cs : List Char} {n : Number} (spelled : Spelled ('+' :: figures) cs)
    (read : unsigned? d.isNegative cs = some n) : spelled? (d.signed cs).toList = some n := by
  obtain ⟨⟨c, rest, text, digit⟩, all⟩ := spelled
  obtain ⟨noPlus, noMinus, noWord⟩ := not_sign_of_digit digit
  have sign : splitSign (if d.isNegative then '-' :: cs else cs) = (d.isNegative, cs) := by
    cases d.isNegative
    · simp [splitSign, text, noPlus, noMinus]
    · rfl
  have other : cs ≠ infinityWord := by
    have initial : infinityWord.head? = some 'I' := by decide
    rintro rfl
    rw [text] at initial
    exact noWord (Option.some.inj initial)
  rw [signed, String.toList_ofList, spelled?_of_figures, decimal?, sign]
  · simp [other, read]
  · split
    · exact List.forall_mem_cons.mpr ⟨by decide, all⟩
    · exact all

theorem infinity_eq (infinite : d.isInfinite = true) : infinity d.isNegative = d := by
  cases d with
  | nan => cases infinite
  | ranked negative rank =>
    have top : rank.val = topRank := by simpa [isInfinite] using infinite
    simp only [infinity, ofRank, isNegative, Nat.min_self, ← top]

theorem mem_figures_of_infinity : ∀ c ∈ infinityWord, c ∈ figures := by
  have all : infinityWord.all figures.contains = true := by decide
  exact fun c inside => by simpa using List.all_eq_true.mp all c inside

theorem spelled?_infinity :
    spelled? (d.signed infinityWord).toList = some (.double (infinity d.isNegative)) := by
  have inside : ∀ c ∈ infinityWord, c ∈ '+' :: figures := fun c inside =>
    List.mem_cons_of_mem _ (mem_figures_of_infinity c inside)
  rw [signed, String.toList_ofList, spelled?_of_figures, decimal?]
  · cases d.isNegative
    · have sign : splitSign infinityWord = (false, infinityWord) := by decide
      simp [sign]
    · simp [splitSign]
  · split
    · exact List.forall_mem_cons.mpr ⟨by decide, inside⟩
    · exact inside

/-- What is shown of a number is read as a number equal to it. -/
theorem spelled?_plainText (number : d.isNaN = false) :
    ∃ n, spelled? d.plainText.toList = some n ∧ n.equals (.double d) = true := by
  have read {cs : List Char} (finite : d.isFinite = true) (spelled : Spelled ('+' :: figures) cs)
      (value : unsigned? d.isNegative cs =
        some (.double (ofDecimal d.isNegative d.shortest.digits d.shortest.exponent))) :
      ∃ n, spelled? (d.signed cs).toList = some n ∧ n.equals (.double d) = true := by
    rw [ofDecimal_shortest finite] at value
    exact ⟨_, spelled?_signed spelled value, Number.equals_self (Number.isNaN_double d ▸ number)⟩
  have sign : ∀ c ∈ powerSign d.shortest.spread.2 :: figures, c ∈ '+' :: figures := by
    refine List.forall_mem_cons.mpr ⟨?_, fun c => List.mem_cons_of_mem _⟩
    rw [powerSign]
    split <;> decide
  have shown := shown_plainText number
  generalize d.plainText = s at shown
  cases shown with
  | infinite infinite =>
    have read := spelled?_infinity (d := d)
    rw [infinity_eq infinite] at read
    exact ⟨_, read, Number.equals_self (Number.isNaN_double d ▸ number)⟩
  | whole whole small => exact ⟨_, spelled?_toString _, equals_whole whole⟩
  | fraction finite fraction =>
    have behind := (places_of_fraction finite fraction).1
    exact read finite ((Decimal.spelled_positional behind).mono fun c => List.mem_cons_of_mem _)
      (Decimal.unsigned?_positional behind)
  | tiny finite fraction small =>
    exact read finite (Decimal.spelled_scientific.mono sign) Decimal.unsigned?_scientific
  | vast vast =>
    exact read vast.1 (Decimal.spelled_scientific.mono sign) Decimal.unsigned?_scientific

end Double

end Walkthrough
