import Mathlib.Tactic.Ring
import Walkthrough.Proofs.Number.Front

/-! The grammar of numerals in ASCII text. What is read as a number is, but for white space around
it, a numeral of the grammar, and every numeral is read; digits alone and the radix forms are the
whole numbers, with the value that their places give them. There is one exception: the letter of
base two is a digit of base sixteen, and so the sign of that base may stand there twice. -/
namespace Walkthrough.Numeral

open Text

/-- The digits of bases up to sixteen in the order of what they stand for. -/
def hexFigures : List Char := "0123456789abcdef".toList

/-- A digit of a base, in either case. -/
def IsFigure (base : Nat) (c : Char) : Prop := c.toLower ∈ hexFigures.take base

instance (base : Nat) (c : Char) : Decidable (IsFigure base c) :=
  inferInstanceAs (Decidable (_ ∈ _))

/-- What a digit stands for. -/
def figure (c : Char) : Nat := hexFigures.idxOf c.toLower

/-- One digit of a base or more. -/
structure Row (base : Nat) (ds : List Char) : Prop where
  filled : ds ≠ []
  digits : ∀ c ∈ ds, IsFigure base c

instance (base : Nat) (ds : List Char) : Decidable (Row base ds) :=
  decidable_of_iff (ds ≠ [] ∧ ds.all (fun c => decide (IsFigure base c)) = true)
    ⟨fun ⟨filled, digits⟩ => ⟨filled, by simpa using digits⟩,
      fun ⟨filled, digits⟩ => ⟨filled, by simpa using digits⟩⟩

/-- Each digit counts the power of the base that its place gives it. -/
def placeValue (base : Nat) : List Char → Nat
  | [] => 0
  | c :: cs => figure c * base ^ cs.length + placeValue base cs

/-- The letters that stand behind a zero, and their bases. -/
def radixLetters : List (Char × Nat) :=
  [('x', 16), ('X', 16), ('o', 8), ('O', 8), ('b', 2), ('B', 2)]

/-- An exponent, if there is one. -/
inductive Power : List Char → Prop where
  | none : Power []
  | power {mark : Char} {sign ds : List Char} {negative : Bool} (letter : mark = 'e' ∨ mark = 'E')
      (signed : Sign sign negative) (row : Row 10 ds) : Power (mark :: (sign ++ ds))

/-- Digits with a point or without. -/
inductive Mantissa : List Char → Prop where
  | whole {ds : List Char} (row : Row 10 ds) : Mantissa ds
  | point {ds frac : List Char} (row : Row 10 ds) (digits : ∀ c ∈ frac, IsFigure 10 c) :
      Mantissa (ds ++ '.' :: frac)
  | fraction {frac : List Char} (row : Row 10 frac) : Mantissa ('.' :: frac)

inductive Plain : List Char → Prop where
  | decimal {sign mantissa power : List Char} {negative : Bool} (signed : Sign sign negative)
      (digits : Mantissa mantissa) (scaled : Power power) : Plain (sign ++ (mantissa ++ power))
  | infinity {sign : List Char} {negative : Bool} (signed : Sign sign negative) :
      Plain (sign ++ infinityWord)

inductive Integral : List Char → Int → Prop where
  | intro {sign ds : List Char} {negative : Bool} (signed : Sign sign negative) (row : Row 10 ds) :
      Integral (sign ++ ds) (signedInt negative (placeValue 10 ds))

/-- A base is announced, and digits of that base follow. -/
inductive Radix : List Char → Nat → Prop where
  | intro {letter : Char} {base : Nat} {ds : List Char} (announced : (letter, base) ∈ radixLetters)
      (row : Row base ds) : Radix ('0' :: letter :: ds) (placeValue base ds)

def Numeric (cs : List Char) : Prop := Plain cs ∨ ∃ n, Radix cs n

/-- The numerals of whole numbers. -/
def Whole (cs : List Char) (k : Int) : Prop := Integral cs k ∨ ∃ n, Radix cs n ∧ k = n

/-- Base two is announced twice. -/
inductive Doubled : List Char → Nat → Prop where
  | intro {first second : Char} {ds : List Char} (announced : (first, 2) ∈ radixLetters)
      (again : (second, 2) ∈ radixLetters) (row : Row 2 ds) :
      Doubled ('0' :: first :: '0' :: second :: ds) (placeValue 2 ds)

def IsAscii (cs : List Char) : Prop := ∀ c ∈ cs, c.toNat < 128

instance (cs : List Char) : Decidable (IsAscii cs) := List.decidableBAll _ cs

variable {cs ds rest sign body : List Char} {c letter : Char} {base : Nat} {k : Int}
  {negative : Bool}

/-! ## Digits -/

theorem IsAscii.front (ascii : IsAscii (cs ++ ds)) : IsAscii cs :=
  fun c inside => ascii c (List.mem_append_left ds inside)

theorem IsAscii.behind (ascii : IsAscii (cs ++ ds)) : IsAscii ds :=
  fun c inside => ascii c (List.mem_append_right cs inside)

theorem IsAscii.tail (ascii : IsAscii (c :: cs)) : IsAscii cs :=
  fun d inside => ascii d (List.mem_cons_of_mem c inside)

theorem digitValue?_eq_figure (ascii : c.toNat < 128) :
    digitValue? c = if IsFigure 10 c then some (figure c) else none := by
  have all : ∀ n < 128, digitValue? (Char.ofNat n) =
      if IsFigure 10 (Char.ofNat n) then some (figure (Char.ofNat n)) else none := by
    decide +kernel
  simpa [Char.ofNat_toNat] using all c.toNat ascii

theorem radixDigit?_eq_figure (ascii : c.toNat < 128) (announced : (letter, base) ∈ radixLetters) :
    radixDigit? base c = if IsFigure base c then some (figure c) else none := by
  have all : ∀ n < 128, ∀ entry ∈ radixLetters, radixDigit? entry.2 (Char.ofNat n) =
      if IsFigure entry.2 (Char.ofNat n) then some (figure (Char.ofNat n)) else none := by
    decide +kernel
  simpa [Char.ofNat_toNat] using all c.toNat ascii _ announced

theorem isDecimal_iff (ascii : c.toNat < 128) : isDecimal c = true ↔ IsFigure 10 c := by
  rw [isDecimal, digitValue?_eq_figure ascii]
  split <;> simp [*]

theorem digits_iff (ascii : IsAscii ds) :
    (∀ c ∈ ds, isDecimal c = true) ↔ ∀ c ∈ ds, IsFigure 10 c :=
  forall₂_congr fun c inside => isDecimal_iff (ascii c inside)

theorem Row.decimal (row : Row 10 ds) (ascii : IsAscii ds) : ∀ c ∈ ds, isDecimal c = true :=
  (digits_iff ascii).mpr row.digits

theorem foldl_figures (n : Nat) :
    (ds.map figure).foldl (fun n d => n * base + d) n = n * base ^ ds.length + placeValue base ds := by
  induction ds generalizing n with
  | nil => simp [placeValue]
  | cons c ds ih =>
    rw [List.map_cons, List.foldl_cons, ih, placeValue, List.length_cons]
    ring

theorem natOfDigits_figures (base : Nat) (ds : List Char) :
    natOfDigits base (ds.map figure) = placeValue base ds := by
  rw [natOfDigits, foldl_figures, Nat.zero_mul, Nat.zero_add]

theorem digitRun_figures (ascii : IsAscii ds) (digits : ∀ c ∈ ds, IsFigure 10 c) :
    (digitRun ds).1 = ds.map figure := by
  induction ds with
  | nil => rfl
  | cons c ds ih =>
    have value := digitValue?_eq_figure (ascii c List.mem_cons_self)
    rw [if_pos (digits c List.mem_cons_self)] at value
    have later := ih ascii.tail fun d inside => digits d (List.mem_cons_of_mem c inside)
    simp [digitRun, value, later]

theorem stop_nil : ∀ c ∈ ([] : List Char).head?, digitValue? c = none := nofun

theorem stop_point (cs : List Char) : ∀ c ∈ ('.' :: cs).head?, digitValue? c = none := by
  rintro c ⟨⟩
  decide

theorem nil_of_run (digits : ∀ c ∈ ds, isDecimal c = true) (nothing : (digitRun ds).1 = []) :
    ds = [] := by
  by_contra filled
  obtain ⟨d, values, run⟩ := exists_digit filled digits
  cases nothing.symm.trans run

theorem row_of_run (ascii : IsAscii ds) (digits : ∀ c ∈ ds, isDecimal c = true)
    (something : (digitRun ds).1 = [] → False) : Row 10 ds := by
  refine ⟨?_, (digits_iff ascii).mp digits⟩
  rintro rfl
  exact something rfl

theorem Row.run (row : Row 10 ds) (ascii : IsAscii ds)
    (stop : ∀ c ∈ rest.head?, digitValue? c = none) :
    ∃ d values, digitRun (ds ++ rest) = (d :: values, rest) := by
  have digits := row.decimal ascii
  obtain ⟨d, values, run⟩ := exists_digit row.filled digits
  exact ⟨d, values, by rw [digitRun_front digits stop, run]⟩

/-! ## Decimal numerals -/

theorem Power.stop (power : Power cs) : ∀ c ∈ cs.head?, digitValue? c = .none := by
  cases power with
  | none => nofun
  | power letter signed row =>
    intro c head
    cases head
    rcases letter with rfl | rfl <;> decide

theorem exponent?_isSome_iff (ascii : IsAscii cs) : (exponent? cs).isSome = true ↔ Power cs := by
  constructor
  · intro read
    cases cs with
    | nil => exact .none
    | cons mark cs =>
      obtain ⟨sign, signed, whole⟩ := exists_sign cs
      obtain ⟨ds, rest, body, digits, stop⟩ := exists_run (splitSign cs).2
      simp only [exponent?, body, digitRun_front digits stop] at read
      rw [body] at whole
      split at read
      · rename_i letter
        split at read
        · cases read
        · rename_i nonempty shape
          obtain ⟨rfl, rfl⟩ := Prod.mk.inj shape
          rw [List.append_nil] at whole
          have inner : IsAscii ds := (whole ▸ ascii.tail).behind
          rw [whole]
          exact .power (by simpa using letter) signed (row_of_run inner digits nonempty)
        · cases read
      · cases read
  · intro power
    cases power with
    | none => rfl
    | power letter signed row =>
      rename_i mark sign ds negative
      have digits := row.decimal ascii.tail.behind
      have split := splitSign_digits signed row.filled digits []
      obtain ⟨d, values, run⟩ := row.run ascii.tail.behind stop_nil
      simp only [List.append_nil] at split run
      simp [exponent?, letter, split, run]

theorem exists_mantissa (ascii : IsAscii cs) (read : (unsigned? negative cs).isSome = true) :
    ∃ mantissa power, cs = mantissa ++ power ∧ Mantissa mantissa ∧ Power power := by
  obtain ⟨ds, rest, rfl, digits, stop⟩ := exists_run cs
  rw [unsigned?, digitRun_front digits stop] at read
  have row := row_of_run ascii.front digits
  split at read
  · rename_i more shape
    obtain ⟨nothing, rfl⟩ := Prod.mk.inj shape
    obtain rfl := nil_of_run digits nothing
    obtain ⟨frac, power, rfl, inside, stop⟩ := exists_run more
    rw [digitRun_front inside stop] at read
    split at read
    · cases read
    · rename_i nonempty shape
      obtain ⟨rfl, rfl⟩ := Prod.mk.inj shape
      rw [Option.isSome_map] at read
      have row := row_of_run ascii.tail.front inside nonempty
      have scaled := (exponent?_isSome_iff ascii.tail.behind).mp read
      exact ⟨'.' :: frac, power, rfl, .fraction row, scaled⟩
  · cases read
  · rename_i nonempty shape
    obtain ⟨rfl, rfl⟩ := Prod.mk.inj shape
    exact ⟨ds, [], rfl, .whole (row nonempty), .none⟩
  · rename_i more nonempty shape
    obtain ⟨rfl, rfl⟩ := Prod.mk.inj shape
    obtain ⟨frac, power, rfl, inside, stop⟩ := exists_run more
    rw [Option.isSome_map, digitRun_front inside stop] at read
    refine ⟨ds ++ '.' :: frac, power, by simp, ?_, ?_⟩
    · exact .point (row nonempty) ((digits_iff ascii.behind.tail.front).mp inside)
    · exact (exponent?_isSome_iff ascii.behind.tail.behind).mp read
  · rename_i nonempty more _ shape
    obtain ⟨rfl, rfl⟩ := Prod.mk.inj shape
    rw [Option.isSome_map] at read
    exact ⟨ds, rest, rfl, .whole (row nonempty), (exponent?_isSome_iff ascii.behind).mp read⟩

theorem unsigned?_isSome {mantissa power : List Char} (ascii : IsAscii (mantissa ++ power))
    (digits : Mantissa mantissa) (scaled : Power power) :
    (unsigned? negative (mantissa ++ power)).isSome = true := by
  have powered := (exponent?_isSome_iff ascii.behind).mpr scaled
  cases digits with
  | whole row =>
    obtain ⟨d, values, run⟩ := row.run ascii.front scaled.stop
    rw [unsigned?, run]
    cases scaled with
    | none => rfl
    | power letter signed row =>
      rcases letter with rfl | rfl <;> simpa using powered
  | point row digits =>
    rename_i ds frac
    obtain ⟨d, values, run⟩ := row.run ascii.front.front (stop_point (frac ++ power))
    have later := digitRun_front ((digits_iff ascii.front.behind.tail).mpr digits) scaled.stop
    simp [unsigned?, run, later, powered]
  | fraction row =>
    rename_i frac
    obtain ⟨d, values, run⟩ := row.run ascii.front.tail scaled.stop
    have first : digitRun ([] ++ '.' :: (frac ++ power)) = ([], '.' :: (frac ++ power)) :=
      digitRun_front (List.forall_mem_nil _) (stop_point _)
    simp only [List.nil_append] at first
    simp [unsigned?, first, run, powered]

/-- What may stand at the front of a decimal numeral and is no part of its digits. -/
def marks : List Char := ['+', '-', 'I']

theorem not_mark_of_figure (digit : IsFigure 10 c) : c ∉ marks := by
  have all : marks.all (fun c => !decide (IsFigure 10 c)) = true := by decide
  intro mark
  have other : ¬IsFigure 10 c := by simpa using List.all_eq_true.mp all c mark
  exact other digit

theorem Row.head (row : Row 10 ds) (rest : List Char) :
    ∃ c more, ds ++ rest = c :: more ∧ c ∉ marks := by
  obtain ⟨c, more, rfl⟩ := List.exists_cons_of_ne_nil row.filled
  exact ⟨c, more ++ rest, rfl, not_mark_of_figure (row.digits c List.mem_cons_self)⟩

theorem Mantissa.head (digits : Mantissa cs) (rest : List Char) :
    ∃ c more, cs ++ rest = c :: more ∧ c ∉ marks := by
  cases digits with
  | whole row => exact row.head rest
  | point row digits =>
    rw [List.append_assoc]
    exact row.head _
  | fraction row => exact ⟨'.', _, rfl, by decide⟩

theorem decimal?_isSome_iff (ascii : IsAscii cs) : (decimal? cs).isSome = true ↔ Plain cs := by
  constructor
  · intro read
    obtain ⟨sign, signed, whole⟩ := exists_sign cs
    rw [decimal?] at read
    simp only at read
    split at read
    · rename_i word
      rw [whole, word]
      exact .infinity signed
    · have body : IsAscii (splitSign cs).2 := IsAscii.behind (whole ▸ ascii)
      obtain ⟨mantissa, power, same, digits, scaled⟩ := exists_mantissa body read
      rw [whole, same]
      exact .decimal signed digits scaled
  · intro plain
    cases plain with
    | decimal signed digits scaled =>
      rename_i sign mantissa power negative
      have read : (unsigned? negative (mantissa ++ power)).isSome = true :=
        unsigned?_isSome ascii.behind digits scaled
      obtain ⟨c, more, body, first⟩ := digits.head power
      rw [body] at read ⊢
      have unmarked : c ≠ '+' ∧ c ≠ '-' ∧ c ≠ 'I' := by simpa [marks] using first
      have other : c :: more ≠ infinityWord := fun same => unmarked.2.2 (List.cons.inj same).1
      simp [decimal?, splitSign_append signed (c := c) (by simp [unmarked]) more, other, read]
    | infinity signed => cases signed <;> rfl

theorem decimal?_eq_int_iff (ascii : IsAscii cs) :
    decimal? cs = some (.int k) ↔ Integral cs k := by
  constructor
  · intro whole
    obtain ⟨_, ⟨⟩⟩ | ⟨negative, body, sign, signed, rfl, read⟩ := decimal?_cases whole
    obtain ⟨ds, rest, rfl, digits, stop, ⟨filled, rfl, same⟩ | ⟨d, ⟨⟩, -⟩⟩ := unsigned?_cases read
    rw [List.append_nil] at ascii ⊢
    have row : Row 10 ds := ⟨filled, (digits_iff ascii.behind).mp digits⟩
    rw [Number.int.inj same, digitRun_figures ascii.behind row.digits, natOfDigits_figures]
    exact .intro signed row
  · rintro ⟨signed, row⟩
    have fronts := Fronts.intro signed row.filled (row.decimal ascii.behind) stop_nil
    rw [List.append_nil, digitRun_figures ascii.behind row.digits, natOfDigits_figures] at fronts
    exact fronts.decimal?

/-! ## Numerals with a base -/

theorem radixBase?_eq_some_iff : radixBase? c = some base ↔ (c, base) ∈ radixLetters := by
  constructor
  · intro radix
    have all : "xXoObB".toList.all (fun c => (radixBase? c).all fun base =>
        radixLetters.contains (c, base)) = true := by decide
    have here := List.all_eq_true.mp all c (mem_letters_of_radixBase? radix)
    simpa [radix] using here
  · have all : ∀ entry ∈ radixLetters, radixBase? entry.1 = some entry.2 := by decide
    exact all (c, base)

theorem radixDigit?_eq_some_iff {d : Nat} (ascii : c.toNat < 128)
    (announced : (letter, base) ∈ radixLetters) :
    radixDigit? base c = some d ↔ IsFigure base c ∧ figure c = d := by
  rw [radixDigit?_eq_figure ascii announced]
  split <;> simp [*]

theorem mapM_radixDigit?_eq_some_iff {values : List Nat} (ascii : IsAscii ds)
    (announced : (letter, base) ∈ radixLetters) : ds.mapM (radixDigit? base) = some values ↔
      (∀ c ∈ ds, IsFigure base c) ∧ ds.map figure = values := by
  induction ds generalizing values with
  | nil => simp
  | cons c ds ih =>
    have first {d : Nat} := radixDigit?_eq_some_iff (d := d) (ascii c List.mem_cons_self) announced
    simp only [List.mapM_cons, Option.bind_eq_bind, Option.bind_eq_some_iff, first, ih ascii.tail,
      List.forall_mem_cons, List.map_cons, Option.pure_def, Option.some.injEq]
    constructor
    · rintro ⟨_, ⟨digit, rfl⟩, _, ⟨digits, rfl⟩, rfl⟩
      exact ⟨⟨digit, digits⟩, rfl⟩
    · rintro ⟨⟨digit, digits⟩, rfl⟩
      exact ⟨_, ⟨digit, rfl⟩, _, ⟨digits, rfl⟩, rfl⟩

theorem IsFigure.hex (announced : (letter, base) ∈ radixLetters) (digit : IsFigure base c) :
    IsFigure 16 c := by
  have all : ∀ entry ∈ radixLetters, entry.2 ≤ 16 := by decide
  exact (List.take_subset_take_left hexFigures (all _ announced)) digit

/-- No letter but that of base two is a digit of base sixteen. -/
theorem dropRadix_cases (base : Nat) (hex : ∀ c ∈ ds, IsFigure 16 c) :
    dropRadix base ds = ds ∨ base = 2 ∧ ∃ second tail, ds = '0' :: second :: tail ∧
      (second, 2) ∈ radixLetters ∧ dropRadix base ds = tail := by
  unfold dropRadix
  split
  · rename_i second tail
    split
    · rename_i again
      have announced : (second, base) ∈ radixLetters := by
        simp only [Bool.and_eq_true, beq_iff_eq] at again
        exact radixBase?_eq_some_iff.mp again.2
      have all : ∀ entry ∈ radixLetters, IsFigure 16 entry.1 → entry.2 = 2 := by decide
      obtain rfl : base = 2 := all _ announced (hex second (by simp))
      exact .inr ⟨rfl, second, tail, rfl, announced, rfl⟩
    · exact .inl rfl
  · exact .inl rfl

theorem radixDigits?_eq_some_iff {m : Number} (ascii : IsAscii ds)
    (announced : (letter, base) ∈ radixLetters) : radixDigits? base ds = some m ↔
      (∀ c ∈ ds, IsFigure 16 c) ∧ Row base (dropRadix base ds) ∧
        m = .int (placeValue base (dropRadix base ds)) := by
  have hex : (ds.all fun c => (radixDigit? 16 c).isSome) = true ↔ ∀ c ∈ ds, IsFigure 16 c := by
    rw [List.all_eq_true]
    refine forall₂_congr fun c inside => ?_
    have letter : ('x', 16) ∈ radixLetters := by decide
    rw [radixDigit?_eq_figure (ascii c inside) letter]
    split <;> simp [*]
  have short : IsAscii (dropRadix base ds) := by
    unfold dropRadix
    split
    · split
      · exact ascii.tail.tail
      · exact ascii
    · exact ascii
  rw [radixDigits?]
  constructor
  · intro read
    split at read
    · rename_i digits
      split at read
      · rename_i d values found
        obtain ⟨figures, same⟩ := (mapM_radixDigit?_eq_some_iff short announced).mp found
        refine ⟨hex.mp digits, ⟨?_, figures⟩, ?_⟩
        · rintro empty
          rw [empty] at same
          cases same
        · rw [← Option.some.inj read, ← same, natOfDigits_figures]
      · cases read
    · cases read
  · rintro ⟨digits, row, rfl⟩
    have found := (mapM_radixDigit?_eq_some_iff short announced).mpr ⟨row.digits, rfl⟩
    obtain ⟨c, more, same⟩ := List.exists_cons_of_ne_nil row.filled
    rw [if_pos (hex.mpr digits), found, ← natOfDigits_figures]
    simp only [same, List.map_cons]

theorem base_unique {other : Nat} (announced : (letter, base) ∈ radixLetters)
    (again : (letter, other) ∈ radixLetters) : base = other :=
  Option.some.inj <|
    (radixBase?_eq_some_iff.mpr announced).symm.trans (radixBase?_eq_some_iff.mpr again)

theorem not_figure_of_letter (announced : (c, 2) ∈ radixLetters) : ¬IsFigure 2 c := by
  have all : ∀ entry ∈ radixLetters, ¬IsFigure 2 entry.1 := by decide
  exact all _ announced

theorem body?_of_letter {m : Number} (ascii : IsAscii ds)
    (announced : (letter, base) ∈ radixLetters) : body? ('0' :: letter :: ds) = some m ↔
      (∃ n : Nat, Radix ('0' :: letter :: ds) n ∧ m = .int n) ∨
        ∃ n : Nat, Doubled ('0' :: letter :: ds) n ∧ m = .int n := by
  rw [body?, radixBase?_eq_some_iff.mpr announced]
  simp only [radixDigits?_eq_some_iff ascii announced]
  constructor
  · rintro ⟨hex, row, rfl⟩
    obtain same | ⟨rfl, second, tail, rfl, again, same⟩ := dropRadix_cases base hex
    · rw [same] at row ⊢
      exact .inl ⟨_, .intro announced row, rfl⟩
    · rw [same] at row ⊢
      exact .inr ⟨_, .intro announced again row, rfl⟩
  · rintro (⟨n, radix, rfl⟩ | ⟨n, doubled, rfl⟩)
    · cases radix with
      | intro announced' row =>
        obtain rfl := base_unique announced announced'
        have hex : ∀ c ∈ ds, IsFigure 16 c := fun c inside => (row.digits c inside).hex announced
        obtain same | ⟨rfl, second, tail, rfl, again, -⟩ := dropRadix_cases base hex
        · rw [same]
          exact ⟨hex, row, rfl⟩
        · exact absurd (row.digits second (by simp)) (not_figure_of_letter again)
    · cases doubled with
      | intro announced' again row =>
        rename_i second ds
        obtain rfl := base_unique announced announced'
        have all : ∀ entry ∈ radixLetters, entry.2 = 2 → IsFigure 16 entry.1 := by decide
        have hex : ∀ c ∈ '0' :: second :: ds, IsFigure 16 c :=
          List.forall_mem_cons.mpr ⟨by decide, List.forall_mem_cons.mpr
            ⟨all _ again rfl, fun c inside => (row.digits c inside).hex announced⟩⟩
        have short : dropRadix 2 ('0' :: second :: ds) = ds := by
          simp [dropRadix, radixBase?_eq_some_iff.mpr again]
        rw [short]
        exact ⟨hex, row, rfl⟩

theorem decimal?_of_letter (announced : (letter, base) ∈ radixLetters) (ds : List Char) :
    decimal? ('0' :: letter :: ds) = none := by
  simp only [radixLetters, List.mem_cons, Prod.mk.injEq, List.not_mem_nil, or_false] at announced
  rcases announced with ⟨rfl, -⟩ | ⟨rfl, -⟩ | ⟨rfl, -⟩ | ⟨rfl, -⟩ | ⟨rfl, -⟩ | ⟨rfl, -⟩ <;> rfl

/-! ## The grammar -/

theorem body?_eq_some_iff {m : Number} (ascii : IsAscii cs) : body? cs = some m ↔
    decimal? cs = some m ∨ (∃ n : Nat, Radix cs n ∧ m = .int n) ∨
      ∃ n : Nat, Doubled cs n ∧ m = .int n := by
  by_cases announced : ∃ letter base ds, (letter, base) ∈ radixLetters ∧ cs = '0' :: letter :: ds
  · obtain ⟨letter, base, ds, announced, rfl⟩ := announced
    simp [body?_of_letter ascii.tail.tail announced, decimal?_of_letter announced]
  · have plain : body? cs = decimal? cs := by
      unfold body?
      split
      · rename_i letter ds
        split
        · rename_i base radix
          exact absurd ⟨letter, base, ds, radixBase?_eq_some_iff.mp radix, rfl⟩ announced
        · rfl
      · rfl
    have unbased {n : Nat} : ¬Radix cs n := by
      rintro ⟨letter, row⟩
      exact announced ⟨_, _, _, letter, rfl⟩
    have undoubled {n : Nat} : ¬Doubled cs n := by
      rintro ⟨letter, again, row⟩
      exact announced ⟨_, _, _, letter, rfl⟩
    simp [plain, unbased, undoubled]

theorem Doubled.not_numeric {n : Nat} (doubled : Doubled cs n) (ascii : IsAscii cs) :
    ¬Numeric cs := by
  cases doubled with
  | intro announced again row =>
    rintro (plain | ⟨n, radix⟩)
    · have read := (decimal?_isSome_iff ascii).mpr plain
      rw [decimal?_of_letter announced] at read
      cases read
    · cases radix with
      | intro announced' row =>
        obtain rfl := base_unique announced announced'
        exact not_figure_of_letter again (row.digits _ (by simp))

/-- A text is read unless it is too long. What is read is a numeral of the grammar, and what is read
as a whole number is the numeral of it, unless base two is announced twice. -/
theorem parse?_grammar (cs : List Char) (ascii : IsAscii cs) :
    (cs.length ≤ digitLimit → ∃ r, parse? cs = .ok r) ∧
    ∀ r, parse? cs = .ok r →
      (((r.isSome = true ↔ Numeric (trim cs)) ∧ ∀ k, r = some (.int k) ↔ Whole (trim cs) k) ↔
        ¬∃ n, Doubled (trim cs) n) := by
  refine ⟨fun short => ⟨_, parse?_eq_ok.mpr ⟨not_tooLong_of_length short, rfl⟩⟩, fun r taken => ?_⟩
  obtain ⟨-, rfl⟩ := parse?_eq_ok.mp taken
  have inner : IsAscii (trim cs) := fun c inside => ascii c (mem_of_mem_trim inside)
  have read {m : Number} := body?_eq_some_iff (m := m) inner
  constructor
  · rintro ⟨accepted, -⟩ ⟨n, doubled⟩
    have some : spelled? cs = .some (.int n) := read.mpr (.inr (.inr ⟨n, doubled, rfl⟩))
    exact doubled.not_numeric inner (accepted.mp (some ▸ rfl))
  · intro single
    have undoubled {n : Nat} : ¬Doubled (trim cs) n := fun doubled => single ⟨n, doubled⟩
    refine ⟨?_, fun k => ?_⟩
    · rw [Numeric, ← decimal?_isSome_iff inner, Option.isSome_iff_exists, Option.isSome_iff_exists]
      simp [spelled?, read, undoubled, exists_or]
    · rw [Whole, ← decimal?_eq_int_iff inner, spelled?, read]
      simp [undoubled]

theorem parse?_grammar_based : IsAscii " 0X1f ".toList ∧
    parse? " 0X1f ".toList = .ok (some (.int 31)) ∧ Numeric "0X1f".toList ∧
      Whole "0X1f".toList 31 := by
  have single : ¬∃ n, Doubled (trim " 0X1f ".toList) n := by
    rintro ⟨n, doubled⟩
    generalize same : trim " 0X1f ".toList = cs at doubled
    cases doubled with
    | intro announced again row => cases same
  have read : parse? " 0X1f ".toList = .ok (some (.int 31)) := by decide
  obtain ⟨-, grammar⟩ := parse?_grammar " 0X1f ".toList (by decide)
  obtain ⟨accepted, whole⟩ := (grammar _ read).mpr single
  exact ⟨by decide, read, accepted.mp rfl, (whole 31).mp rfl⟩

theorem parse?_doubled : parse? "0b0b1".toList = .ok (some (.int 1)) ∧ ¬Numeric "0b0b1".toList := by
  have doubled : Doubled "0b0b1".toList (placeValue 2 ['1']) :=
    .intro (by decide) (by decide) (by decide)
  exact ⟨by decide, doubled.not_numeric (by decide)⟩

end Walkthrough.Numeral
