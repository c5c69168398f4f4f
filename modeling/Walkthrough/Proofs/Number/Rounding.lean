import Mathlib.Tactic.Linarith
import Mathlib.Tactic.Ring
import Mathlib.Tactic.SplitIfs
import Walkthrough.Number.Double

/-! Rounding to ranks. A rank is a significand and a power of two, its neighbours lie one unit of the
last place away, or half a unit below the first rank of a binade. What lies between the midpoints to
the neighbours rounds to the rank, a midpoint itself if the rank is even. -/
namespace Walkthrough

theorem roundHalfEven_eq {num den k : Nat} (pos : 0 < den) (low : 2 * (k * den) ≤ 2 * num + den)
    (high : 2 * num ≤ 2 * (k * den) + den)
    (tie : 2 * (k * den) = 2 * num + den ∨ 2 * num = 2 * (k * den) + den → k % 2 = 0) :
    roundHalfEven num den = k := by
  have parts : num / den * den + num % den = num := Nat.div_add_mod' num den
  have below := Nat.mod_lt num pos
  rw [roundHalfEven]
  generalize num / den = q at *
  generalize num % den = rem at *
  subst parts
  -- the quotient rounded down is the result or one less
  have le : k ≤ q + 1 := by
    by_contra more
    have : (q + 2) * den ≤ k * den := Nat.mul_le_mul_right den (by omega)
    linarith
  have ge : q ≤ k := by
    by_contra less
    have : (k + 1) * den ≤ q * den := Nat.mul_le_mul_right den (by omega)
    linarith
  obtain rfl | rfl : k = q ∨ k = q + 1 := by omega
  · generalize k * den = p at *
    split_ifs with first second third
    · rfl
    · omega
    · rfl
    · simp only [beq_iff_eq] at third
      omega
  · have step : (q + 1) * den = q * den + den := Nat.succ_mul q den
    rw [step] at low high tie
    generalize q * den = p at *
    split_ifs with first second third
    · omega
    · rfl
    · simp only [beq_iff_eq] at third
      omega
    · rfl

/-- The rounded quotient lies no more than half a unit away. -/
theorem roundHalfEven_near (num : Nat) {den : Nat} (pos : 0 < den) :
    2 * (roundHalfEven num den * den) ≤ 2 * num + den ∧
      2 * num ≤ 2 * (roundHalfEven num den * den) + den := by
  have parts : num / den * den + num % den = num := Nat.div_add_mod' num den
  have below := Nat.mod_lt num pos
  rw [roundHalfEven]
  generalize num / den = q at *
  generalize num % den = rem at *
  subst parts
  have step : (q + 1) * den = q * den + den := Nat.succ_mul q den
  split_ifs <;> omega

/-- A rank as a significand and a power of two; below the first power of two there is no more than
the significand. -/
structure Significand (rank m s : Nat) : Prop where
  rank_eq : rank = m + s * binade
  below : m < 2 * binade
  normal : s = 0 ∨ binade ≤ m

theorem binade_pos : 0 < binade := by decide

theorem binade_even : binade % 2 = 0 := by decide

theorem exists_significand (rank : Nat) : ∃ m s, Significand rank m s := by
  have parts := Nat.div_add_mod' rank binade
  have below := Nat.mod_lt rank binade_pos
  cases quotient : rank / binade with
  | zero =>
    rw [quotient] at parts
    exact ⟨rank, 0, by omega, by omega, .inl rfl⟩
  | succ s =>
    rw [quotient, Nat.succ_mul] at parts
    exact ⟨binade + rank % binade, s, by omega, by omega, .inr (by omega)⟩

theorem unitsOfRank_of_low {rank : Nat} (low : rank < binade) : unitsOfRank rank = rank :=
  if_pos low

theorem unitsOfRank_of_binade {f : Nat} (s : Nat) (below : f < binade) :
    unitsOfRank (f + (s + 1) * binade) = (binade + f) * 2 ^ s := by
  have high : ¬ f + (s + 1) * binade < binade := by
    rw [Nat.succ_mul]
    omega
  have quotient : (f + (s + 1) * binade) / binade = s + 1 := by
    rw [Nat.add_mul_div_right f (s + 1) binade_pos, Nat.div_eq_of_lt below, Nat.zero_add]
  have remainder : (f + (s + 1) * binade) % binade = f := by
    rw [Nat.add_mul_mod_self_right, Nat.mod_eq_of_lt below]
  rw [unitsOfRank, if_neg high, quotient, remainder, Nat.add_sub_cancel, Nat.pow_eq]

namespace Significand

variable {rank m s : Nat}

theorem units_eq (parts : Significand rank m s) : unitsOfRank rank = m * 2 ^ s := by
  obtain ⟨rfl, below, normal⟩ := parts
  rcases Nat.lt_or_ge m binade with low | high
  · obtain rfl : s = 0 := normal.resolve_right (Nat.not_le.mpr low)
    rw [Nat.zero_mul, Nat.add_zero, unitsOfRank_of_low low, Nat.pow_zero, Nat.mul_one]
  · obtain ⟨f, rfl⟩ := Nat.exists_eq_add_of_le high
    have place : binade + f + s * binade = f + (s + 1) * binade := by ring
    rw [place, unitsOfRank_of_binade s (by omega)]

/-- The next rank lies one unit of the last place further on. -/
theorem units_succ (parts : Significand rank m s) :
    unitsOfRank (rank + 1) = unitsOfRank rank + 2 ^ s := by
  rw [parts.units_eq]
  obtain ⟨rfl, below, normal⟩ := parts
  rcases Nat.lt_or_ge (m + 1) (2 * binade) with same | next
  · have later : Significand (m + s * binade + 1) (m + 1) s :=
      ⟨by ring, same, normal.imp_right Nat.le_succ_of_le⟩
    rw [later.units_eq, Nat.succ_mul]
  · have later : Significand (m + s * binade + 1) binade (s + 1) := by
      refine ⟨?_, by have := binade_pos; omega, .inr (Nat.le_refl _)⟩
      rw [Nat.succ_mul]
      omega
    have carry : m + 1 = 2 * binade := by omega
    calc unitsOfRank (m + s * binade + 1) = binade * 2 ^ (s + 1) := later.units_eq
      _ = (m + 1) * 2 ^ s := by rw [carry, Nat.pow_succ]; ring
      _ = m * 2 ^ s + 2 ^ s := Nat.succ_mul m (2 ^ s)

theorem inner_or_first (parts : Significand rank m s) :
    (s = 0 ∨ binade < m) ∨ ∃ t, s = t + 1 ∧ m = binade := by
  by_cases inner : s = 0 ∨ binade < m
  · exact .inl inner
  · have normal := parts.normal
    exact .inr ⟨s - 1, by omega, by omega⟩

/-- So does the rank before, except below the first rank of a binade. -/
theorem units_pred (parts : Significand (rank + 1) m s) (inner : s = 0 ∨ binade < m) :
    unitsOfRank rank + 2 ^ s = unitsOfRank (rank + 1) := by
  have positive : 0 < m := by
    have := parts.rank_eq
    rcases inner with rfl | inner <;> omega
  have before : Significand rank (m - 1) s := by
    obtain ⟨whole, below, -⟩ := parts
    exact ⟨by omega, by omega, inner.imp_right fun _ => by omega⟩
  rw [before.units_succ]

theorem units_pred_of_first (parts : Significand (rank + 1) binade (s + 1)) :
    unitsOfRank rank + 2 ^ s = unitsOfRank (rank + 1) := by
  have before : Significand rank (2 * binade - 1) s := by
    have whole := parts.rank_eq
    rw [Nat.succ_mul] at whole
    have := binade_pos
    exact ⟨by omega, by omega, .inr (by omega)⟩
  rw [before.units_succ]

theorem units_pred_le (parts : Significand (rank + 1) m s) :
    unitsOfRank (rank + 1) ≤ unitsOfRank rank + 2 ^ s := by
  obtain inner | ⟨t, rfl, rfl⟩ := parts.inner_or_first
  · exact Nat.le_of_eq (parts.units_pred inner).symm
  · rw [← parts.units_pred_of_first]
    exact Nat.add_le_add_left (Nat.pow_le_pow_right (by decide) (Nat.le_succ t)) _

end Significand

theorem spare_eq {q s : Nat} (low : s = 0 ∨ binade * 2 ^ s ≤ q) (high : q < 2 * binade * 2 ^ s) :
    q.log2 - 52 = s := by
  have power : 2 * binade * 2 ^ s = 2 ^ (s + 53) := by
    rw [binade, Nat.pow_eq]
    ring
  have power' : binade * 2 ^ s = 2 ^ (s + 52) := by
    rw [binade, Nat.pow_eq]
    ring
  rw [power] at high
  rw [power'] at low
  rcases Nat.eq_zero_or_pos q with rfl | positive
  · rcases low with rfl | low
    · rfl
    · exact absurd low (by simp)
  · have most := (Nat.log2_lt (by omega)).mpr high
    rcases low with rfl | low
    · omega
    · have least := (Nat.le_log2 (by omega)).mpr low
      omega

/-- A quotient that lies between the midpoints around a rank. -/
structure Near (rank num den : Nat) : Prop where
  low : (unitsOfRank (rank - 1) + unitsOfRank rank) * den ≤ 2 * num
  high : 2 * num ≤ (unitsOfRank rank + unitsOfRank (rank + 1)) * den
  tie : (unitsOfRank (rank - 1) + unitsOfRank rank) * den = 2 * num ∨
    2 * num = (unitsOfRank rank + unitsOfRank (rank + 1)) * den → rank % 2 = 0

theorem rankOfUnits_eq {num den k s rank : Nat} (pos : 0 < den) (le : rank ≤ topRank)
    (sum : k + s * binade = rank) (low : 2 * (k * (den * 2 ^ s)) ≤ 2 * num + den * 2 ^ s)
    (high : 2 * num ≤ 2 * (k * (den * 2 ^ s)) + den * 2 ^ s)
    (tie : 2 * (k * (den * 2 ^ s)) = 2 * num + den * 2 ^ s ∨
      2 * num = 2 * (k * (den * 2 ^ s)) + den * 2 ^ s → k % 2 = 0)
    (least : s = 0 ∨ binade * (den * 2 ^ s) ≤ num) (most : num < 2 * binade * (den * 2 ^ s)) :
    rankOfUnits num den = rank := by
  have spare : (num / den).log2 - 52 = s := by
    refine spare_eq (least.imp_right fun least => (Nat.le_div_iff_mul_le pos).mpr ?_)
      ((Nat.div_lt_iff_lt_mul pos).mpr ?_)
    · calc binade * 2 ^ s * den = binade * (den * 2 ^ s) := by ring
        _ ≤ num := least
    · calc num < 2 * binade * (den * 2 ^ s) := most
        _ = 2 * binade * 2 ^ s * den := by ring
  have rounded := roundHalfEven_eq (Nat.mul_pos pos (Nat.two_pow_pos s)) low high tie
  rw [rankOfUnits, spare, Nat.pow_eq, rounded, sum, Nat.min_eq_right le]

/-- Nearness is a matter of the quotient alone. -/
theorem Near.of_ratio {rank num den num' den' : Nat} (near : Near rank num den)
    (same : num * den' = num' * den) (pos : 0 < den) (pos' : 0 < den') : Near rank num' den' := by
  have cross (a : Nat) : a * den' * den = a * den * den' := by ring
  have twice : 2 * num' * den = 2 * num * den' := by
    rw [Nat.mul_assoc, Nat.mul_assoc, same]
  obtain ⟨low, high, tie⟩ := near
  refine ⟨Nat.le_of_mul_le_mul_right ?_ pos, Nat.le_of_mul_le_mul_right ?_ pos, fun tied => tie ?_⟩
  · rw [cross, twice]
    exact Nat.mul_le_mul_right den' low
  · rw [cross, twice]
    exact Nat.mul_le_mul_right den' high
  · refine tied.imp (fun low => ?_) fun high => ?_
    · exact Nat.eq_of_mul_eq_mul_right pos' (by rw [← cross, ← twice, low])
    · exact Nat.eq_of_mul_eq_mul_right pos' (by rw [← cross, ← twice, high])

theorem even_significand {rank m s : Nat} (parts : Significand rank m s) (even : rank % 2 = 0) :
    m % 2 = 0 := by
  have whole := parts.rank_eq
  have half : s * binade = 2 * (s * (binade / 2)) := by
    have := Nat.mul_div_cancel' (Nat.dvd_of_mod_eq_zero binade_even)
    calc s * binade = s * (2 * (binade / 2)) := by rw [this]
      _ = 2 * (s * (binade / 2)) := by ring
  omega

/-- What lies between the midpoints around a rank rounds to it. -/
theorem Near.rankOfUnits_eq {rank num den : Nat} (near : Near (rank + 1) num den)
    (le : rank + 1 ≤ topRank) (pos : 0 < den) : rankOfUnits num den = rank + 1 := by
  obtain ⟨m, s, parts⟩ := exists_significand (rank + 1)
  obtain ⟨low, high, tie⟩ := near
  rw [Nat.add_sub_cancel] at low tie
  rw [parts.units_succ] at high tie
  simp only [Nat.add_mul] at low high tie
  have units : unitsOfRank (rank + 1) * den = m * (den * 2 ^ s) := by
    rw [parts.units_eq]
    ring
  have scaled : 2 ^ s * den = den * 2 ^ s := Nat.mul_comm _ _
  have room : m * (den * 2 ^ s) + den * 2 ^ s ≤ 2 * binade * (den * 2 ^ s) := by
    rw [← Nat.succ_mul]
    exact Nat.mul_le_mul_right _ parts.below
  have positive : 0 < den * 2 ^ s := Nat.mul_pos pos (Nat.two_pow_pos s)
  rw [units, scaled] at high tie
  rw [units] at low
  obtain inner | ⟨t, rfl, rfl⟩ := parts.inner_or_first
  · have gap : unitsOfRank rank * den + den * 2 ^ s = m * (den * 2 ^ s) := by
      rw [← units, ← parts.units_pred inner, Nat.add_mul, scaled]
    refine Walkthrough.rankOfUnits_eq pos le parts.rank_eq.symm (by omega) (by omega)
      (fun tied => even_significand parts (tie (by omega))) (inner.imp_right fun normal => ?_) (by omega)
    have wide : (binade + 1) * (den * 2 ^ s) ≤ m * (den * 2 ^ s) := Nat.mul_le_mul_right _ normal
    rw [Nat.succ_mul] at wide
    omega
  · -- the first rank of a binade, where the gap below is half as wide
    by_cases reached : binade * (den * 2 ^ (t + 1)) ≤ num
    · exact Walkthrough.rankOfUnits_eq pos le parts.rank_eq.symm (by omega) (by omega)
        (fun tied => even_significand parts (tie (by omega))) (.inr reached) (by omega)
    · have twice : binade * (den * 2 ^ (t + 1)) = 2 * binade * (den * 2 ^ t) := by ring
      have gap : unitsOfRank rank * den + den * 2 ^ t = binade * (den * 2 ^ (t + 1)) := by
        rw [← units, ← parts.units_pred_of_first, Nat.add_mul, Nat.mul_comm den]
      have sum : 2 * binade + t * binade = rank + 1 := by
        rw [parts.rank_eq]
        ring
      have wide : den * 2 ^ t ≤ binade * (den * 2 ^ t) := Nat.le_mul_of_pos_left _ binade_pos
      have split : 2 * binade * (den * 2 ^ t) = 2 * (binade * (den * 2 ^ t)) := by ring
      exact Walkthrough.rankOfUnits_eq pos le sum (by omega) (by omega) (fun _ => by omega)
        (.inr (by omega)) (by omega)

theorem unitsOfRank_pos (rank : Nat) : 0 < unitsOfRank (rank + 1) := by
  obtain ⟨m, s, parts⟩ := exists_significand (rank + 1)
  rw [parts.units_eq]
  refine Nat.mul_pos ?_ (Nat.two_pow_pos s)
  have whole := parts.rank_eq
  have := binade_pos
  rcases parts.normal with rfl | normal <;> omega

theorem units_le {rank s bound : Nat} (ample : 2 * binade * Nat.pow 2 s ≤ bound)
    (le : rank ≤ (s + 1) * binade) : unitsOfRank rank ≤ bound := by
  obtain ⟨m, t, parts⟩ := exists_significand rank
  have whole := parts.rank_eq
  have lower : t ≤ s := by
    rcases parts.normal with rfl | normal
    · exact Nat.zero_le s
    · have scaled : (t + 1) * binade ≤ (s + 1) * binade := by
        rw [Nat.succ_mul]
        omega
      exact Nat.le_of_succ_le_succ (Nat.le_of_mul_le_mul_right scaled binade_pos)
  rw [parts.units_eq]
  exact Nat.le_trans
    (Nat.mul_le_mul (Nat.le_of_lt parts.below) (Nat.pow_le_pow_right (by decide) lower)) ample

theorem Near.le_of_units {rank num den bound : Nat} (near : Near rank num den)
    (here : unitsOfRank rank ≤ bound) (above : unitsOfRank (rank + 1) ≤ bound) :
    num ≤ bound * den := by
  have sum := Nat.mul_le_mul_right den (Nat.add_le_add here above)
  rw [← Nat.two_mul, Nat.mul_assoc] at sum
  exact Nat.le_of_mul_le_mul_left (Nat.le_trans near.high sum) (by decide)

/-- The gap below a rank is no less than its 2^53rd part, and so is the one above. -/
theorem units_le_gap (rank : Nat) :
    unitsOfRank (rank + 1) + 2 * binade * unitsOfRank rank ≤ 2 * binade * unitsOfRank (rank + 1) ∧
      unitsOfRank (rank + 1) + 2 * binade * unitsOfRank (rank + 1) ≤
        2 * binade * unitsOfRank (rank + 2) := by
  obtain ⟨m, s, parts⟩ := exists_significand (rank + 1)
  have units := parts.units_eq
  have below : m * 2 ^ s ≤ 2 * binade * 2 ^ s := Nat.mul_le_mul_right _ (Nat.le_of_lt parts.below)
  constructor
  · by_cases inner : s = 0 ∨ binade < m
    · have gap := parts.units_pred inner
      rw [units] at gap ⊢
      rw [← gap, Nat.mul_add, gap]
      omega
    · obtain ⟨t, rfl⟩ : ∃ t, s = t + 1 := Nat.exists_eq_succ_of_ne_zero fun zero => inner (.inl zero)
      obtain rfl : m = binade := by
        have := parts.normal
        omega
      have gap := parts.units_pred_of_first
      have twice : binade * 2 ^ (t + 1) = 2 * binade * 2 ^ t := by ring
      rw [units] at gap ⊢
      rw [twice] at gap ⊢
      rw [← gap, Nat.mul_add, gap]
      omega
  · rw [parts.units_succ, units, Nat.mul_add]
    omega

theorem unitsInOne_pos : 0 < unitsInOne := by decide +kernel

theorem unitsInOne_eq : unitsInOne = 2 ^ 1074 := by decide +kernel

theorem dvd_of_pow_eq {ones k s : Nat} (power : ones = 2 ^ k) (le : k ≤ s) : ones ∣ 2 ^ s := by
  rw [power]
  exact Nat.pow_dvd_pow 2 le

/-- From 2^53 on all magnitudes are whole. -/
theorem dvd_units_of_le {rank : Nat} (le : (1074 + 1) * binade ≤ rank) :
    unitsInOne ∣ unitsOfRank rank := by
  obtain ⟨m, s, parts⟩ := exists_significand rank
  have whole := parts.rank_eq
  have below := parts.below
  have wide : 1074 ≤ s := by
    refine Nat.le_of_lt_succ (Nat.lt_of_mul_lt_mul_right (a := binade) ?_)
    rw [Nat.succ_mul s]
    omega
  rw [parts.units_eq]
  exact (dvd_of_pow_eq unitsInOne_eq wide).mul_left m

/-- What is near a whole number of ones is one itself: between the midpoints around any other there
is none. -/
theorem Near.dvd_units {rank n : Nat} (near : Near (rank + 1) (n * unitsInOne) 1) :
    unitsInOne ∣ unitsOfRank (rank + 1) := by
  obtain ⟨m, s, parts⟩ := exists_significand (rank + 1)
  obtain ⟨low, high, -⟩ := near
  rw [Nat.add_sub_cancel, Nat.mul_one] at low
  rw [parts.units_succ, Nat.mul_one] at high
  have gap := parts.units_pred_le
  rcases Nat.le_total 1074 s with wide | narrow
  · rw [parts.units_eq]
    exact (dvd_of_pow_eq unitsInOne_eq wide).mul_left m
  · -- both are multiples of the unit of the last place, less than one apart
    have ones : unitsInOne = 2 ^ (1074 - s) * 2 ^ s := by
      rw [← Nat.pow_add, Nat.sub_add_cancel narrow, unitsInOne_eq]
    have whole : n * unitsInOne = n * 2 ^ (1074 - s) * 2 ^ s := by rw [ones, Nat.mul_assoc]
    have positive : 0 < 2 ^ s := Nat.two_pow_pos s
    rw [parts.units_eq] at low high gap ⊢
    rw [whole] at low high
    have same : m = n * 2 ^ (1074 - s) := by
      refine Nat.le_antisymm ?_ ?_ <;> by_contra apart
      · have := Nat.mul_le_mul_right (2 ^ s) (Nat.not_le.mp apart)
        rw [Nat.succ_mul] at this
        omega
      · have := Nat.mul_le_mul_right (2 ^ s) (Nat.not_le.mp apart)
        rw [Nat.succ_mul] at this
        omega
    rw [same, ← whole]
    exact Nat.dvd_mul_left _ _

end Walkthrough
