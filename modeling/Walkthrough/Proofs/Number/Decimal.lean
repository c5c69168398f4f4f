import Walkthrough.Number.Numeral

/-! Numbers in decimal digits. A whole number in digits is a numeral of itself, unless it has too
many of them. -/
namespace Walkthrough

theorem Number.lt_digits_pow {k : Nat} (pos : 0 < k) : k < (Number.int (Nat.pow 10 k)).digits := by
  rw [Number.digits, Int.natAbs_natCast, ← Nat.not_le, Nat.length_toDigits_le_iff (by decide) pos]
  exact Nat.lt_irrefl _

namespace Numeral

open Text

/-- The digits that whole numbers are written with. -/
def asciiDigits : List Char := "0123456789".toList

theorem mem_asciiDigits {c : Char} (digit : c.isDigit = true) : c ∈ asciiDigits := by
  have bounds : 48 ≤ c.toNat ∧ c.toNat ≤ 57 := by
    simpa [Char.isDigit, UInt32.le_iff_toNat_le] using digit
  obtain ⟨i, below, same⟩ : ∃ i < 10, c = Char.ofNat (48 + i) :=
    ⟨c.toNat - 48, by omega, by rw [Nat.add_sub_cancel' bounds.1, Char.ofNat_toNat]⟩
  have all : ∀ i < 10, Char.ofNat (48 + i) ∈ asciiDigits := by decide
  rw [same]
  exact all i below

theorem mem_toDigits {c : Char} {n : Nat} (inside : c ∈ Nat.toDigits 10 n) : c ∈ asciiDigits :=
  mem_asciiDigits (Nat.isDigit_of_mem_toDigits (by decide) (by decide) inside)

theorem toDigits_injective : Function.Injective (Nat.toDigits 10) := by
  intro m n same
  have numbers := congrArg (Nat.ofDigitChars 10 · 0) same
  simpa [Nat.ofDigitChars_toDigits] using numbers

/-- The characters of numbers, but for the sign of a power that is not negative. -/
def figures : List Char := "0123456789.e-Infity".toList

variable {c : Char} {cs : List Char}

theorem mem_figures_of_digit (digit : c ∈ asciiDigits) : c ∈ figures := by
  have all : asciiDigits.all figures.contains = true := by decide
  simpa using List.all_eq_true.mp all c digit

theorem digitValue?_of_digit (digit : c ∈ asciiDigits) : digitValue? c = some (c.toNat - 48) := by
  have all : asciiDigits.all (fun c => digitValue? c == some (c.toNat - 48)) = true := by decide
  simpa using List.all_eq_true.mp all c digit

theorem not_sign_of_digit (digit : c ∈ asciiDigits) : c ≠ '+' ∧ c ≠ '-' ∧ c ≠ 'I' := by
  have all : asciiDigits.all (fun c => c != '+' && c != '-' && c != 'I') = true := by decide
  simpa [and_assoc] using List.all_eq_true.mp all c digit

theorem digitRun_append {rest : List Char} (digits : ∀ c ∈ cs, c ∈ asciiDigits)
    (stop : ∀ c ∈ rest.head?, digitValue? c = none) :
    digitRun (cs ++ rest) = (cs.map fun c => c.toNat - 48, rest) := by
  induction cs with
  | nil =>
    cases rest with
    | nil => rfl
    | cons d more => simp [digitRun, stop d rfl]
  | cons c cs ih =>
    have later := ih fun d inside => digits d (List.mem_cons_of_mem c inside)
    simp [digitRun, digitValue?_of_digit (digits c List.mem_cons_self), later]

theorem digitRun_of_digits (digits : ∀ c ∈ cs, c ∈ asciiDigits) :
    digitRun cs = (cs.map fun c => c.toNat - 48, []) := by
  have alone : ∀ c ∈ ([] : List Char).head?, digitValue? c = none := by simp
  simpa using digitRun_append digits alone

theorem natOfDigits_of_digits (cs : List Char) :
    natOfDigits 10 (cs.map fun c => c.toNat - 48) = Nat.ofDigitChars 10 cs 0 := by
  simp only [natOfDigits, Nat.ofDigitChars, List.foldl_map, Nat.mul_comm]
  rfl

theorem dropWhile_of_ink (ink : ∀ c ∈ cs, isBlank c = false) : cs.dropWhile isBlank = cs := by
  cases cs with
  | nil => rfl
  | cons c cs => rw [List.dropWhile_cons_of_neg (by simp [ink c List.mem_cons_self])]

theorem trim_of_ink (ink : ∀ c ∈ cs, isBlank c = false) : trim cs = cs := by
  have back : ∀ c ∈ cs.reverse, isBlank c = false := fun c inside => ink c (List.mem_reverse.mp inside)
  rw [trim, trimWhere, dropWhile_of_ink ink, dropWhile_of_ink back, List.reverse_reverse]

/-- Nothing in the text of a number is skipped or taken for the sign of a base. -/
theorem spelled?_of_figures (all : ∀ c ∈ cs, c ∈ '+' :: figures) : spelled? cs = decimal? cs := by
  have plain : ('+' :: figures).all (fun c => !isBlank c && radixBase? c == none) = true := by decide
  have each : ∀ c ∈ cs, isBlank c = false ∧ radixBase? c = none := fun c inside => by
    simpa using List.all_eq_true.mp plain c (all c inside)
  rw [spelled?, trim_of_ink fun c inside => (each c inside).1]
  unfold body?
  split
  · rename_i c rest
    rw [(each c (by simp)).2]
  · rfl

theorem splitSign_of_digits (digits : ∀ c ∈ cs, c ∈ asciiDigits) : splitSign cs = (false, cs) := by
  cases cs with
  | nil => rfl
  | cons c cs =>
    have other := not_sign_of_digit (digits c List.mem_cons_self)
    simp [splitSign, other]

theorem unsigned?_of_digits {negative : Bool} (digits : ∀ c ∈ cs, c ∈ asciiDigits) (some : cs ≠ []) :
    unsigned? negative cs = .some (.int (signedInt negative (Nat.ofDigitChars 10 cs 0))) := by
  obtain ⟨c, rest, rfl⟩ := List.exists_cons_of_ne_nil some
  rw [← natOfDigits_of_digits, unsigned?, digitRun_of_digits digits]
  rfl

/-- Digits behind a sign, if there is one. -/
theorem decimal?_of_sign {negative : Bool} {n : Nat}
    (sign : splitSign cs = (negative, Nat.toDigits 10 n)) :
    decimal? cs = some (.int (signedInt negative n)) := by
  have digits : ∀ c ∈ Nat.toDigits 10 n, c ∈ asciiDigits := fun c inside => mem_toDigits inside
  have other : Nat.toDigits 10 n ≠ infinityWord := by
    intro same
    have first : 'I' ∈ Nat.toDigits 10 n := by
      rw [same]
      decide
    exact (not_sign_of_digit (digits 'I' first)).2.2 rfl
  rw [decimal?, sign]
  simp only [other, ↓reduceIte]
  rw [unsigned?_of_digits digits Nat.toDigits_ne_nil, Nat.ofDigitChars_toDigits (by decide) (by decide)]

theorem toList_negSucc (n : Nat) :
    (toString (Int.negSucc n)).toList = '-' :: Nat.toDigits 10 (n + 1) := by
  rw [show toString (Int.negSucc n) = "-" ++ (n + 1).repr from rfl, String.toList_append,
    Nat.toList_repr]
  rfl

theorem mem_figures_of_whole {n : Int} (inside : c ∈ (toString n).toList) : c ∈ figures := by
  cases n with
  | ofNat n =>
    have text : (toString (Int.ofNat n)).toList = Nat.toDigits 10 n := Nat.toList_repr
    rw [text] at inside
    exact mem_figures_of_digit (mem_toDigits inside)
  | negSucc n =>
    rw [toList_negSucc] at inside
    rcases List.mem_cons.mp inside with rfl | inside
    · decide
    · exact mem_figures_of_digit (mem_toDigits inside)

theorem spelled?_toString (n : Int) : spelled? (toString n).toList = some (.int n) := by
  rw [spelled?_of_figures fun c inside => List.mem_cons_of_mem _ (mem_figures_of_whole inside)]
  cases n with
  | ofNat n =>
    have text : (toString (Int.ofNat n)).toList = Nat.toDigits 10 n := Nat.toList_repr
    rw [text, decimal?_of_sign (splitSign_of_digits fun c inside => mem_toDigits inside)]
    rfl
  | negSucc n =>
    rw [toList_negSucc, decimal?_of_sign rfl]
    rfl

theorem tooLong_toString (n : Int) :
    tooLong (toString n).toList = decide (digitLimit < (Number.int n).digits) := by
  have ink : figures.all (fun c => !isBlank c) = true := by decide
  have digits {n : Nat} : ∀ c ∈ Nat.toDigits 10 n, c ∈ asciiDigits := fun c inside => mem_toDigits inside
  rw [tooLong, trim_of_ink fun c inside => by
    simpa using List.all_eq_true.mp ink c (mem_figures_of_whole inside), Number.digits]
  cases n with
  | ofNat n =>
    have text : (toString (Int.ofNat n)).toList = Nat.toDigits 10 n := Nat.toList_repr
    rw [text, splitSign_of_digits digits, digitRun_of_digits digits]
    simp
  | negSucc n =>
    rw [toList_negSucc]
    simp only [splitSign, digitRun_of_digits digits]
    simp

theorem parse?_toString (n : Int) :
    parse? (toString n).toList = unlessTooMany (Number.int n).digits (some (.int n)) := by
  simp only [parse?, tooLong_toString, spelled?_toString, unlessTooMany, decide_eq_true_eq]

/-- The number one, behind as many zeros as digits may be read. -/
def paddedOne : List Char := List.replicate digitLimit '0' ++ ['1']

theorem mem_paddedOne (inside : c ∈ paddedOne) : c ∈ asciiDigits := by
  rcases List.mem_append.mp inside with zero | one
  · rw [List.eq_of_mem_replicate zero]
    decide
  · rw [List.mem_singleton.mp one]
    decide

theorem parse?_paddedOne : parse? paddedOne = .error .tooManyDigits := by
  have plain : asciiDigits.all (fun c => !isBlank c) = true := by decide
  have ink : ∀ c ∈ paddedOne, isBlank c = false := fun c inside => by
    simpa using List.all_eq_true.mp plain c (mem_paddedOne inside)
  have sign := splitSign_of_digits fun c (inside : c ∈ paddedOne) => mem_paddedOne inside
  have run := digitRun_of_digits fun c (inside : c ∈ paddedOne) => mem_paddedOne inside
  have many : digitLimit < (paddedOne.map fun c => c.toNat - 48).length := by
    rw [List.length_map, paddedOne, List.length_append, List.length_replicate]
    exact Nat.lt_succ_self _
  simp only [parse?, tooLong, trim_of_ink ink, sign, run, many, decide_true, ↓reduceIte]

end Numeral

end Walkthrough
