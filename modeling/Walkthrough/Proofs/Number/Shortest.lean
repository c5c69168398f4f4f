import Walkthrough.Number.Shortest
import Walkthrough.Proofs.Number.Rounding

/-! Shortest decimals read back. Seventeen digits always reach into the interval of a rank, so the
search ends with a decimal of the interval, and dropping its zeros does not change what it is. -/
namespace Walkthrough

namespace Decimal

/-- Numerator and denominator of a decimal, counted in units. -/
def num (d : Decimal) : Nat := d.digits * 10 ^ d.exponent.toNat * unitsInOne

def den (d : Decimal) : Nat := 10 ^ (-d.exponent).toNat

theorem den_pos (d : Decimal) : 0 < d.den := Nat.pow_pos (by decide)

/-- The decimal lies between the midpoints around a rank. -/
def NearRank (d : Decimal) (rank : Nat) : Prop := Near rank d.num d.den

/-- Ten times the digits at an exponent are the digits at the next one. -/
theorem num_mul_den (n : Nat) (e : Int) :
    num ⟨n * 10, e⟩ * den ⟨n, e + 1⟩ = num ⟨n, e + 1⟩ * den ⟨n * 10, e⟩ := by
  simp only [num, den]
  rcases Int.lt_or_le e 0 with negative | whole
  · obtain ⟨k, rfl⟩ : ∃ k : Nat, e = -(k + 1) := ⟨(-e - 1).toNat, by omega⟩
    have above : (-((-(k + 1) : Int) + 1)).toNat = k := by omega
    have below : (-(-(k + 1) : Int)).toNat = k + 1 := by omega
    have none : ((-(k + 1) : Int) + 1).toNat = 0 ∧ (-(k + 1) : Int).toNat = 0 := by omega
    rw [above, below, none.1, none.2]
    ring
  · obtain ⟨k, rfl⟩ := Int.eq_ofNat_of_zero_le whole
    have above : ((k : Int) + 1).toNat = k + 1 := by omega
    have below : (k : Int).toNat = k := by omega
    have none : (-((k : Int) + 1)).toNat = 0 ∧ (-(k : Int)).toNat = 0 := by omega
    rw [above, below, none.1, none.2]
    ring

theorem nearRank_dropZeros {rank : Nat} (fuel : Nat) {d : Decimal} (near : d.NearRank rank) :
    (dropZeros fuel d).NearRank rank := by
  induction fuel generalizing d with
  | zero => exact near
  | succ fuel ih =>
    rw [dropZeros]
    split
    · rename_i zero
      obtain ⟨digits, exponent⟩ := d
      have tens : digits / 10 * 10 = digits := by
        simp only [Bool.and_eq_true, bne_iff_ne, beq_iff_eq] at zero
        omega
      have same := num_mul_den (digits / 10) exponent
      rw [tens] at same
      exact ih (Near.of_ratio near same (den_pos _) (den_pos _))
    · exact near

theorem pow_eq_twice_ones : Nat.pow 2 1075 = 2 * unitsInOne := by decide +kernel

/-- A multiple of one over a denominator lies in the interval, whose bounds are scaled alike. -/
def Interval.contains (i : Interval) (up den n : Nat) : Bool :=
  if i.closed then i.low * up ≤ n * den && n * den ≤ i.high * up
  else i.low * up < n * den && n * den < i.high * up

/-- The nearest multiple and the one on the other side of the value. -/
theorem Interval.candidate?_eq (i : Interval) (e : Int) :
    let up := Nat.pow 10 (-e).toNat
    let den := Nat.pow 2 1075 * Nat.pow 10 e.toNat
    let nearest := roundHalfEven (i.value * up) den
    ∃ other, i.candidate? e = if i.contains up den nearest then some ⟨nearest, e⟩
      else if i.contains up den other then some ⟨other, e⟩ else none := ⟨_, rfl⟩

theorem nearRank_of_contains {rank n : Nat} {e : Int}
    (inside : (Interval.ofRank rank).contains (Nat.pow 10 (-e).toNat)
      (Nat.pow 2 1075 * Nat.pow 10 e.toNat) n = true) : (⟨n, e⟩ : Decimal).NearRank rank := by
  have twice : n * (2 * unitsInOne * Nat.pow 10 e.toNat) = 2 * num ⟨n, e⟩ := by
    rw [num, Nat.pow_eq]
    ring
  rw [Interval.contains, pow_eq_twice_ones, twice] at inside
  have up : Nat.pow 10 (-e).toNat = den ⟨n, e⟩ := rfl
  rw [up] at inside
  by_cases even : rank % 2 = 0
  · simp only [Interval.ofRank, even, beq_self_eq_true, ↓reduceIte, Bool.and_eq_true,
      decide_eq_true_eq] at inside
    exact ⟨inside.1, inside.2, fun _ => even⟩
  · have odd : (rank % 2 == 0) = false := by simpa using even
    simp only [Interval.ofRank, odd, Bool.false_eq_true, ↓reduceIte, Bool.and_eq_true,
      decide_eq_true_eq] at inside
    obtain ⟨low, high⟩ := inside
    exact ⟨Nat.le_of_lt low, Nat.le_of_lt high,
      fun tied => (tied.elim (Nat.ne_of_lt low) (Nat.ne_of_lt high)).elim⟩

/-- What the search takes lies in the interval. -/
theorem nearRank_of_candidate? {rank : Nat} {e : Int} {d : Decimal}
    (found : (Interval.ofRank rank).candidate? e = some d) : d.NearRank rank := by
  obtain ⟨other, same⟩ := (Interval.ofRank rank).candidate?_eq e
  rw [same] at found
  split_ifs at found with first second
  · rw [← Option.some.inj found]
    exact nearRank_of_contains first
  · rw [← Option.some.inj found]
    exact nearRank_of_contains second

theorem Interval.contains_of_lt {i : Interval} {up den n : Nat} (low : i.low * up < n * den)
    (high : n * den < i.high * up) : i.contains up den n = true := by
  have low' := Nat.le_of_lt low
  have high' := Nat.le_of_lt high
  rw [Interval.contains]
  split <;> simp_all

theorem lt_of_gap {value low high den : Nat} (gap : value + 2 * binade * low ≤ 2 * binade * high)
    (fine : den * 10 ^ 16 ≤ value) (pos : 0 < den) : low + den < high := by
  have small : 2 * binade * den < den * 10 ^ 16 := by
    rw [Nat.mul_comm]
    exact Nat.mul_lt_mul_of_pos_left (by decide) pos
  by_contra close
  have wide : 2 * binade * high ≤ 2 * binade * (low + den) :=
    Nat.mul_le_mul_left _ (Nat.not_lt.mp close)
  rw [Nat.mul_add] at wide
  omega

/-- Multiples close enough to one another lie in every interval. -/
theorem contains_nearest {rank up den : Nat} (pos : 0 < den)
    (fine : den * 10 ^ 16 ≤ (Interval.ofRank (rank + 1)).value * up) :
    (Interval.ofRank (rank + 1)).contains up den
      (roundHalfEven ((Interval.ofRank (rank + 1)).value * up) den) = true := by
  have value : (Interval.ofRank (rank + 1)).value = 2 * unitsOfRank (rank + 1) := rfl
  rw [value] at fine ⊢
  obtain ⟨below, above⟩ := roundHalfEven_near (2 * unitsOfRank (rank + 1) * up) pos
  obtain ⟨gap, gap'⟩ := units_le_gap rank
  have scaled {a b c : Nat} (gap : a + 2 * binade * b ≤ 2 * binade * c) :
      2 * a * up + 2 * binade * (2 * b * up) ≤ 2 * binade * (2 * c * up) := by
    have := Nat.mul_le_mul_right (2 * up) gap
    linarith
  have left := lt_of_gap (scaled gap) fine pos
  have right := lt_of_gap (scaled gap') fine pos
  have low : 2 * ((unitsOfRank rank + unitsOfRank (rank + 1)) * up) =
      2 * unitsOfRank rank * up + 2 * unitsOfRank (rank + 1) * up := by ring
  have high : 2 * ((unitsOfRank (rank + 1) + unitsOfRank (rank + 2)) * up) =
      2 * unitsOfRank (rank + 1) * up + 2 * unitsOfRank (rank + 2) * up := by ring
  refine Interval.contains_of_lt ?_ ?_
  · change (unitsOfRank rank + unitsOfRank (rank + 1)) * up < _
    omega
  · change _ < (unitsOfRank (rank + 1) + unitsOfRank (rank + 2)) * up
    omega

theorem lt_pow_length (n : Nat) : n < 10 ^ (Nat.toDigits 10 n).length :=
  (Nat.length_toDigits_le_iff (by decide) Nat.length_toDigits_pos).mp (Nat.le_refl _)

theorem pow_length_le {n : Nat} (pos : 0 < n) : 10 ^ ((Nat.toDigits 10 n).length - 1) ≤ n := by
  rcases Nat.eq_zero_or_pos ((Nat.toDigits 10 n).length - 1) with one | more
  · rwa [one]
  · have not_less := mt (Nat.length_toDigits_le_iff (b := 10) (n := n) (by decide) more).mpr
    exact Nat.not_lt.mp (not_less (by omega))

theorem fine_of_digits {ones value n length k : Nat} {e : Int}
    (most : n * ones ≤ value * Nat.pow 10 k) (least : 10 ^ length ≤ n)
    (places : e.toNat + 16 + k = length + (-e).toNat) :
    ones * Nat.pow 10 e.toNat * 10 ^ 16 ≤ value * Nat.pow 10 (-e).toNat := by
  simp only [Nat.pow_eq] at most ⊢
  refine Nat.le_of_mul_le_mul_right (c := 10 ^ k) ?_ (Nat.pow_pos (by decide))
  calc ones * 10 ^ e.toNat * 10 ^ 16 * 10 ^ k = ones * 10 ^ (e.toNat + 16 + k) := by
        rw [Nat.pow_add, Nat.pow_add]
        ring
    _ = 10 ^ length * ones * 10 ^ (-e).toNat := by
        rw [places, Nat.pow_add]
        ring
    _ ≤ n * ones * 10 ^ (-e).toNat := Nat.mul_le_mul_right _ (Nat.mul_le_mul_right _ least)
    _ ≤ value * 10 ^ k * 10 ^ (-e).toNat := Nat.mul_le_mul_right _ most
    _ = value * 10 ^ (-e).toNat * 10 ^ k := by ring

/-- Of a quotient carried to `k` places, sixteen places behind the first digit are fine enough. -/
theorem fine_of_length {ones value k : Nat} (pos : 0 < ones) (ample : ones ≤ value * Nat.pow 10 k) :
    let e : Int := (Nat.toDigits 10 (value * Nat.pow 10 k / ones)).length - (k + 1 : Nat) - 16
    ones * Nat.pow 10 e.toNat * 10 ^ 16 ≤ value * Nat.pow 10 (-e).toNat := by
  intro e
  have some : 0 < value * Nat.pow 10 k / ones := Nat.div_pos ample pos
  have digits : 0 < (Nat.toDigits 10 (value * Nat.pow 10 k / ones)).length :=
    Nat.length_toDigits_pos
  exact fine_of_digits (Nat.div_mul_le_self _ _) (pow_length_le some) (by omega)

/-- As many places as the order of a value is found at make up for its denominator. -/
theorem places_ample : 2 * unitsInOne ≤ Nat.pow 10 400 := by decide +kernel

theorem Interval.magnitude_eq (i : Interval) : i.magnitude =
    (Nat.toDigits 10 (i.value * Nat.pow 10 400 / (2 * unitsInOne))).length - (400 + 1 : Nat) := by
  rw [magnitude, pow_eq_twice_ones]
  rfl

theorem magnitude_fine (rank : Nat) :
    let i := Interval.ofRank (rank + 1)
    let e := i.magnitude - 16
    2 * unitsInOne * Nat.pow 10 e.toNat * 10 ^ 16 ≤ i.value * Nat.pow 10 (-e).toNat := by
  have ample : 2 * unitsInOne ≤ (Interval.ofRank (rank + 1)).value * Nat.pow 10 400 :=
    Nat.le_trans places_ample
      (Nat.le_mul_of_pos_left _ (Nat.mul_pos (by decide) (unitsOfRank_pos rank)))
  have fine := fine_of_length (Nat.mul_pos (by decide) unitsInOne_pos) ample
  rwa [← Interval.magnitude_eq] at fine

theorem exists_candidate (rank : Nat) : ∃ d, (Interval.ofRank (rank + 1)).candidate?
    ((Interval.ofRank (rank + 1)).magnitude - 16) = some d := by
  obtain ⟨other, same⟩ := (Interval.ofRank (rank + 1)).candidate?_eq
    ((Interval.ofRank (rank + 1)).magnitude - 16)
  have pos : 0 < 2 * unitsInOne * Nat.pow 10 ((Interval.ofRank (rank + 1)).magnitude - 16).toNat :=
    Nat.mul_pos (Nat.mul_pos (by decide) unitsInOne_pos) (Nat.pow_pos (by decide))
  rw [pow_eq_twice_ones, contains_nearest pos (magnitude_fine rank)] at same
  exact ⟨_, same⟩

theorem nearRank_search {rank : Nat} {first : Int} {fuel count : Nat}
    (reached : ∃ j < fuel, ∃ d, (Interval.ofRank rank).candidate? (first - (count + j) + 1) = some d) :
    ((Interval.ofRank rank).search first fuel count).NearRank rank := by
  induction fuel generalizing count with
  | zero =>
    obtain ⟨j, none, -⟩ := reached
    cases none
  | succ fuel ih =>
    rw [Interval.search]
    cases found : (Interval.ofRank rank).candidate? (first - count + 1) with
    | some d => exact nearRank_dropZeros 20 (nearRank_of_candidate? found)
    | none =>
      obtain ⟨j, below, d, later⟩ := reached
      cases j with
      | zero =>
        rw [Int.natCast_zero, Int.add_zero, found] at later
        cases later
      | succ j =>
        refine ih ⟨j, by omega, d, ?_⟩
        rw [← later]
        congr 1
        omega

/-- The shortest decimal of a rank lies in its interval. -/
theorem nearRank_ofRank (rank : Nat) : (ofRank (rank + 1)).NearRank (rank + 1) := by
  obtain ⟨d, found⟩ := exists_candidate rank
  -- the candidate of seventeen digits is the last one that the fuel reaches
  refine nearRank_search ⟨16, by decide, d, ?_⟩
  rw [← found]
  congr 1
  omega

/-- A decimal that is not too small has its first digit not too far behind the point. -/
theorem lt_size {d : Decimal} {a b k : Nat} (pos : 0 < b) (ample : b * unitsInOne ≤ a * Nat.pow 10 k)
    (least : a * d.den ≤ b * d.num) : -(k : Int) < (Nat.toDigits 10 d.digits).length + d.exponent := by
  have shorter : (-d.exponent).toNat < (Nat.toDigits 10 d.digits).length + d.exponent.toNat + k := by
    refine (Nat.pow_lt_pow_iff_right (a := 10) (by decide)).mp (Nat.lt_of_mul_lt_mul_left (a := a) ?_)
    calc a * 10 ^ (-d.exponent).toNat ≤ b * (d.digits * 10 ^ d.exponent.toNat * unitsInOne) := least
      _ = d.digits * (10 ^ d.exponent.toNat * (b * unitsInOne)) := by ring
      _ < 10 ^ (Nat.toDigits 10 d.digits).length * (10 ^ d.exponent.toNat * (b * unitsInOne)) :=
        Nat.mul_lt_mul_of_pos_right (lt_pow_length d.digits)
          (Nat.mul_pos (Nat.pow_pos (by decide)) (Nat.mul_pos pos unitsInOne_pos))
      _ ≤ 10 ^ (Nat.toDigits 10 d.digits).length * (10 ^ d.exponent.toNat * (a * 10 ^ k)) :=
        Nat.mul_le_mul_left _ (Nat.mul_le_mul_left _ ample)
      _ = a * 10 ^ ((Nat.toDigits 10 d.digits).length + d.exponent.toNat + k) := by
        rw [Nat.pow_add, Nat.pow_add]
        ring
  omega

/-- A decimal that is not too large has its first digit not too far before the point. -/
theorem size_le {d : Decimal} {k : Nat} (most : d.num ≤ Nat.pow 10 k * unitsInOne * d.den)
    (some : 0 < d.digits) : (Nat.toDigits 10 d.digits).length + d.exponent ≤ k + 1 := by
  have shorter : (Nat.toDigits 10 d.digits).length - 1 + d.exponent.toNat ≤ k + (-d.exponent).toNat := by
    refine (Nat.pow_le_pow_iff_right (a := 10) (by decide)).mp ?_
    refine Nat.le_of_mul_le_mul_right (c := unitsInOne) ?_ unitsInOne_pos
    calc 10 ^ ((Nat.toDigits 10 d.digits).length - 1 + d.exponent.toNat) * unitsInOne
        = 10 ^ ((Nat.toDigits 10 d.digits).length - 1) * 10 ^ d.exponent.toNat * unitsInOne := by
          rw [Nat.pow_add]
      _ ≤ d.digits * 10 ^ d.exponent.toNat * unitsInOne :=
        Nat.mul_le_mul_right _ (Nat.mul_le_mul_right _ (pow_length_le some))
      _ ≤ 10 ^ k * unitsInOne * 10 ^ (-d.exponent).toNat := most
      _ = 10 ^ (k + (-d.exponent).toNat) * unitsInOne := by
        rw [Nat.pow_add]
        ring
  omega

theorem units_ample : 2 * binade * Nat.pow 2 2046 ≤ Nat.pow 10 399 * unitsInOne := by
  decide +kernel

theorem NearRank.den_le {d : Decimal} {rank : Nat} (near : d.NearRank (rank + 1)) :
    1 * d.den ≤ 2 * d.num :=
  Nat.le_trans (Nat.mul_le_mul_right _ (Nat.add_pos_right _ (unitsOfRank_pos rank))) near.low

theorem NearRank.digits_pos {d : Decimal} {rank : Nat} (near : d.NearRank (rank + 1)) :
    0 < d.digits := by
  refine Nat.pos_of_ne_zero fun none => ?_
  have least := near.den_le
  have := d.den_pos
  rw [num, none, Nat.zero_mul, Nat.zero_mul] at least
  omega

theorem ofDecimal_eq {d : Decimal} {rank : Nat} (near : d.NearRank (rank + 1))
    (below : rank + 1 < topRank) (negative : Bool) :
    Double.ofDecimal negative d.digits d.exponent = Double.ofRank negative (rank + 1) := by
  have some := near.digits_pos
  have most := near.le_of_units (units_le units_ample (Nat.le_of_lt below)) (units_le units_ample below)
  have small := lt_size (by decide) (Nat.le_trans places_ample (Nat.le_mul_of_pos_left _ Nat.one_pos))
    near.den_le
  have large := size_le most some
  have rounded := near.rankOfUnits_eq (Nat.le_of_lt below) d.den_pos
  have size : ¬(d.digits == 0 || (Nat.toDigits 10 d.digits).length + d.exponent < -400) := by
    simp only [Bool.or_eq_true, beq_iff_eq, decide_eq_true_eq]
    omega
  -- neither of the guards on the count of digits applies
  rw [Double.ofDecimal]
  simp only [if_neg size]
  rw [if_neg (by omega)]
  rcases Int.lt_or_le d.exponent 0 with behind | whole
  · have none : d.exponent.toNat = 0 := by omega
    rw [num, den, none, Nat.pow_zero, Nat.mul_one] at rounded
    rw [if_neg (by omega), Double.ofRatio, ← rounded]
    rfl
  · have none : (-d.exponent).toNat = 0 := by omega
    rw [num, den, none, Nat.pow_zero] at rounded
    rw [if_pos whole, Double.ofRatio, ← rounded]
    rfl

/-- A decimal near a rank of units that are not whole has digits behind the point. -/
theorem exponent_neg {d : Decimal} {rank : Nat} (near : d.NearRank (rank + 1))
    (fraction : ¬unitsInOne ∣ unitsOfRank (rank + 1)) : d.exponent < 0 := by
  refine Int.not_le.mp fun whole => fraction ?_
  have none : (-d.exponent).toNat = 0 := by omega
  rw [NearRank, den, none, Nat.pow_zero] at near
  exact near.dvd_units

theorem units_small : 2 * binade * Nat.pow 2 1074 ≤ Nat.pow 10 20 * unitsInOne := by
  decide +kernel

theorem size_le_of_fraction {d : Decimal} {rank : Nat} (near : d.NearRank (rank + 1))
    (fraction : ¬unitsInOne ∣ unitsOfRank (rank + 1)) :
    (Nat.toDigits 10 d.digits).length + d.exponent ≤ 21 := by
  have below : rank + 1 < (1074 + 1) * binade := Nat.not_le.mp (mt dvd_units_of_le fraction)
  have most := near.le_of_units (units_le units_small (Nat.le_of_lt below)) (units_le units_small below)
  have size := size_le most near.digits_pos
  omega

end Decimal

namespace Double

variable {d : Double}

/-- A finite number is a zero or stands at a positive rank below the top. -/
theorem zero_or_rank (finite : d.isFinite = true) :
    (d = zero d.isNegative ∧ d.units = 0 ∧ d.shortest = ⟨0, 0⟩) ∨
      ∃ rank, rank + 1 < topRank ∧ d = ofRank d.isNegative (rank + 1) ∧
        d.units.natAbs = unitsOfRank (rank + 1) ∧ d.shortest = Decimal.ofRank (rank + 1) := by
  cases d with
  | nan => cases finite
  | ranked negative rank =>
    obtain ⟨rank, le⟩ := rank
    have below : rank < topRank := by
      refine Nat.lt_of_le_of_ne (Nat.le_of_lt_succ le) fun top => ?_
      simp [isFinite, isInfinite, top] at finite
    cases rank with
    | zero =>
      refine .inl ⟨?_, ?_, rfl⟩
      · cases negative <;> rfl
      · cases negative <;> rfl
    | succ rank =>
      refine .inr ⟨rank, below, ?_, ?_, rfl⟩
      · simp only [isNegative, ofRank, Nat.min_eq_right (Nat.le_of_lt below)]
      · cases negative
        · exact Int.natAbs_natCast _
        · exact (Int.natAbs_neg _).trans (Int.natAbs_natCast _)

/-- The shortest decimal of a finite number reads back as it. -/
theorem ofDecimal_shortest (finite : d.isFinite = true) :
    ofDecimal d.isNegative d.shortest.digits d.shortest.exponent = d := by
  obtain ⟨same, -, shortest⟩ | ⟨rank, below, same, -, shortest⟩ := zero_or_rank finite
  · rw [shortest]
    exact same.symm
  · rw [shortest, Decimal.ofDecimal_eq (Decimal.nearRank_ofRank rank) below, ← same]

/-- A finite number of 22 digits and more in front of the point. -/
def Vast (d : Double) : Prop := d.isFinite = true ∧ 10 ^ 21 * unitsInOne ≤ d.units.natAbs

/-- A number that is not whole has digits behind the point and few in front of it. -/
theorem places_of_fraction (finite : d.isFinite = true) (fraction : d.toInt? = none) :
    d.shortest.exponent < 0 ∧ d.shortest.spread.2 < 21 ∧ ¬d.Vast := by
  have part : ¬unitsInOne ∣ d.units.natAbs := by
    rw [← Int.natCast_dvd]
    intro whole
    rw [toInt?, finite, Int.emod_eq_zero_of_dvd whole] at fraction
    simp only [beq_self_eq_true, Bool.and_self, ↓reduceIte, reduceCtorEq] at fraction
  obtain ⟨-, zero, -⟩ | ⟨rank, -, -, units, shortest⟩ := zero_or_rank finite
  · rw [zero] at part
    exact absurd (Nat.dvd_zero _) part
  · rw [units] at part
    have near := Decimal.nearRank_ofRank rank
    have size := Decimal.size_le_of_fraction near part
    rw [← shortest] at near size
    refine ⟨Decimal.exponent_neg near part, ?_, fun vast => ?_⟩
    · rw [Decimal.spread]
      omega
    · have below : rank + 1 < (1074 + 1) * binade := Nat.not_le.mp (mt dvd_units_of_le part)
      have small := units_le Decimal.units_small (Nat.le_of_lt below)
      have large := vast.2
      rw [units] at large
      have wide := Nat.mul_lt_mul_of_pos_right (by decide : Nat.pow 10 20 < 10 ^ 21) unitsInOne_pos
      exact absurd (Nat.le_trans large small) (Nat.not_le.mpr wide)

theorem Vast.first_nonneg (vast : d.Vast) : 0 ≤ d.shortest.spread.2 := by
  obtain ⟨finite, large⟩ := vast
  have pos := unitsInOne_pos
  obtain ⟨-, zero, -⟩ | ⟨rank, -, -, units, shortest⟩ := zero_or_rank finite
  · rw [zero] at large
    omega
  · rw [units] at large
    have near := Decimal.nearRank_ofRank rank
    rw [← shortest] at near
    have ones : 2 * unitsInOne ≤ unitsOfRank (rank + 1) :=
      Nat.le_trans (Nat.mul_le_mul_right _ (by decide)) large
    have twice : 2 * unitsInOne * d.shortest.den ≤ 2 * d.shortest.num :=
      Nat.le_trans (Nat.mul_le_mul_right _ (Nat.le_trans ones (Nat.le_add_left _ _))) near.low
    rw [Nat.mul_assoc] at twice
    have least : unitsInOne * d.shortest.den ≤ 1 * d.shortest.num := by
      rw [Nat.one_mul]
      exact Nat.le_of_mul_le_mul_left twice (by decide)
    have ample : 1 * unitsInOne ≤ unitsInOne * Nat.pow 10 0 := by
      rw [Nat.one_mul]
      exact Nat.le_mul_of_pos_right _ Nat.one_pos
    have size := Decimal.lt_size Nat.one_pos ample least
    rw [Decimal.spread]
    omega

end Double

end Walkthrough
