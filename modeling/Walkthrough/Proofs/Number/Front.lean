import Walkthrough.Number.Double
import Walkthrough.Proofs.Number.Decimal
import Walkthrough.Proofs.Text.Parts

/-! The whole number at the front of a numeral. A whole number in decimal digits is its own front.
Where the sign of a base is in front, only the zero of that sign is, and before a power it is the
number that the digits in front of the power spell. Of the digits in front there may be too many,
also where the numeral as a whole can be read. -/
namespace Walkthrough.Numeral

open Text

/-- The sign of a base is in front: a zero and a letter. -/
def Based (cs : List Char) : Prop :=
  ∃ letter digits, trim cs = '0' :: letter :: digits ∧ letter ∈ "xXoObB".toList

inductive Sign : List Char → Bool → Prop where
  | none : Sign [] false
  | plus : Sign ['+'] false
  | minus : Sign ['-'] true

/-- A sign and some digits, with no digit behind them. -/
inductive Fronts : List Char → Int → List Char → Prop where
  | intro {sign ds rest : List Char} {negative : Bool} (signed : Sign sign negative)
      (some : ds ≠ []) (digits : ∀ c ∈ ds, isDecimal c = true)
      (stop : ∀ c ∈ rest.head?, digitValue? c = none) :
      Fronts (sign ++ ds ++ rest) (signedInt negative (natOfDigits 10 (digitRun ds).1)) rest

/-- Too many digits stand at the front, behind white space and a sign. -/
def LongFront (cs : List Char) : Prop :=
  digitLimit < (digitRun (splitSign (cs.dropWhile isBlank)).2).1.length

instance (cs : List Char) : Decidable (LongFront cs) := inferInstanceAs (Decidable (_ < _))

variable {cs ds rest : List Char} {c : Char} {n k : Int} {negative : Bool}

theorem digitValue?_of_isBlank (blank : isBlank c = true) : digitValue? c = none := by
  have all : decimalZeros.all (fun z => (List.range 10).all fun i => !isBlank (Char.ofNat (z + i))) =
      true := by decide
  by_contra digit
  obtain ⟨d, value⟩ := Option.ne_none_iff_exists'.mp digit
  obtain ⟨z, found, -⟩ := Option.map_eq_some_iff.mp value
  obtain ⟨low, high⟩ : z ≤ c.toNat ∧ c.toNat ≤ z + 9 := by simpa using List.find?_some found
  have each := List.all_eq_true.mp all z (List.mem_of_find?_eq_some found)
  have here := List.all_eq_true.mp each (c.toNat - z) (by simp; omega)
  rw [Nat.add_sub_cancel' low, Char.ofNat_toNat, blank] at here
  cases here

theorem ink_of_digit (digit : isDecimal c = true) : isBlank c = false := by
  by_contra blank
  simp only [Bool.not_eq_false] at blank
  simp [isDecimal, digitValue?_of_isBlank blank] at digit

theorem mem_letters_of_radixBase? {base : Nat} (radix : radixBase? c = some base) :
    c ∈ "xXoObB".toList := by
  by_contra other
  simp at other
  simp [radixBase?, other] at radix

/-! ## Runs of digits -/

theorem not_digit_of_letter (letter : c ∈ "xXoObB".toList) : digitValue? c = none := by
  have all : ("xXoObB".toList.all fun c => (digitValue? c).isNone) = true := by decide
  exact Option.isNone_iff_eq_none.mp (List.all_eq_true.mp all c letter)

theorem digitRun_front (digits : ∀ c ∈ ds, isDecimal c = true)
    (stop : ∀ c ∈ rest.head?, digitValue? c = none) :
    digitRun (ds ++ rest) = ((digitRun ds).1, rest) := by
  induction ds with
  | nil =>
    cases rest with
    | nil => rfl
    | cons d more => simp [digitRun, stop d rfl]
  | cons c ds ih =>
    obtain ⟨d, value⟩ := Option.isSome_iff_exists.mp (digits c List.mem_cons_self)
    have later := ih fun e inside => digits e (List.mem_cons_of_mem c inside)
    simp [digitRun, value, later]

theorem digitRun_alone (digits : ∀ c ∈ ds, isDecimal c = true) :
    digitRun ds = ((digitRun ds).1, []) := by
  have stop : ∀ c ∈ ([] : List Char).head?, digitValue? c = none := nofun
  simpa using digitRun_front digits stop

theorem exists_digit (some : ds ≠ []) (digits : ∀ c ∈ ds, isDecimal c = true) :
    ∃ d values, (digitRun ds).1 = d :: values := by
  obtain ⟨c, more, rfl⟩ := List.exists_cons_of_ne_nil some
  obtain ⟨d, value⟩ := Option.isSome_iff_exists.mp (digits c List.mem_cons_self)
  exact ⟨d, (digitRun more).1, by simp [digitRun, value]⟩

theorem length_digitRun (digits : ∀ c ∈ ds, isDecimal c = true) :
    (digitRun ds).1.length = ds.length := by
  induction ds with
  | nil => rfl
  | cons c ds ih =>
    obtain ⟨first, later⟩ := List.forall_mem_cons.mp digits
    obtain ⟨d, value⟩ := Option.isSome_iff_exists.mp first
    simp [digitRun, value, ih later]

theorem exists_run (cs : List Char) : ∃ ds rest, cs = ds ++ rest ∧
    (∀ c ∈ ds, isDecimal c = true) ∧ ∀ c ∈ rest.head?, digitValue? c = none := by
  induction cs with
  | nil => exact ⟨[], [], rfl, nofun, nofun⟩
  | cons c cs ih =>
    cases value : digitValue? c with
    | none => exact ⟨[], c :: cs, rfl, nofun, by simpa using value⟩
    | some d =>
      obtain ⟨ds, rest, rfl, digits, stop⟩ := ih
      refine ⟨c :: ds, rest, rfl, List.forall_mem_cons.mpr ⟨?_, digits⟩, stop⟩
      simp [isDecimal, value]

theorem exists_sign (cs : List Char) :
    ∃ sign, Sign sign (splitSign cs).1 ∧ cs = sign ++ (splitSign cs).2 := by
  unfold splitSign
  split
  · exact ⟨['+'], .plus, rfl⟩
  · exact ⟨['-'], .minus, rfl⟩
  · exact ⟨[], .none, rfl⟩

theorem splitSign_append {sign : List Char} (signed : Sign sign negative)
    (plain : c ∉ ['+', '-']) (rest : List Char) :
    splitSign (sign ++ c :: rest) = (negative, c :: rest) := by
  cases signed with
  | none =>
    have other : c ≠ '+' ∧ c ≠ '-' := by simpa using plain
    simp [splitSign, other]
  | plus | minus => rfl

theorem splitSign_digits {sign : List Char} (signed : Sign sign negative) (some : ds ≠ [])
    (digits : ∀ c ∈ ds, isDecimal c = true) (rest : List Char) :
    splitSign (sign ++ ds ++ rest) = (negative, ds ++ rest) := by
  obtain ⟨c, more, rfl⟩ := List.exists_cons_of_ne_nil some
  have plain : c ∉ ['+', '-'] := by
    intro mark
    have digit := digits c List.mem_cons_self
    rcases (by simpa using mark : c = '+' ∨ c = '-') with rfl | rfl <;> cases digit
  rw [List.append_assoc]
  exact splitSign_append signed plain _

/-! ## The front of a text -/

theorem Fronts.intPrefix? (fronts : Fronts (cs.dropWhile isBlank) k rest) :
    intPrefix? cs = if LongFront cs then .error .tooManyDigits else .ok (some k) := by
  obtain ⟨text, same⟩ : ∃ text, text = cs.dropWhile isBlank := ⟨_, rfl⟩
  rw [← same] at fronts
  cases fronts with
  | intro signed some digits stop =>
    obtain ⟨d, values, run⟩ := exists_digit some digits
    simp only [Numeral.intPrefix?, LongFront, ← same, splitSign_digits signed some digits,
      digitRun_front digits stop, run, unlessTooMany]

theorem intPrefix?_eq_error {f : Fault} :
    intPrefix? cs = .error f ↔ f = .tooManyDigits ∧ LongFront cs := by
  simp only [Numeral.intPrefix?, LongFront]
  cases (digitRun (splitSign (cs.dropWhile isBlank)).2).1 with
  | nil => simp
  | cons d ds =>
    simp only [unlessTooMany]
    split
    · simp only [*, Except.error.injEq, and_true, eq_comm]
    · simp only [*, reduceCtorEq, and_false]

/-- White space at the end of a text is no digit, so it can be left to stand there. -/
theorem Fronts.untrimmed (fronts : Fronts (trim cs) k rest) :
    ∃ more, Fronts (cs.dropWhile isBlank) k more := by
  obtain ⟨gap, whole, blank⟩ := exists_trim cs
  rw [whole]
  obtain ⟨text, same⟩ : ∃ text, text = trim cs := ⟨_, rfl⟩
  rw [← same] at fronts ⊢
  cases fronts with
  | intro signed some digits stop =>
    refine ⟨rest ++ gap, ?_⟩
    rw [List.append_assoc _ rest gap]
    refine .intro signed some digits fun c head => ?_
    cases rest with
    | nil => exact digitValue?_of_isBlank (blank c (List.mem_of_mem_head? head))
    | cons d more => exact stop c head

theorem Fronts.decimal? (fronts : Fronts cs k []) : decimal? cs = some (.int k) := by
  cases fronts with
  | intro signed some digits stop =>
    rename_i sign ds negative
    obtain ⟨d, values, run⟩ := exists_digit some digits
    have other : ds ≠ infinityWord := by
      rintro rfl
      cases digits 'I' List.mem_cons_self
    rw [Numeral.decimal?, splitSign_digits signed some digits, List.append_nil]
    simp only [other, ↓reduceIte]
    rw [unsigned?, digitRun_alone digits, run]

theorem Fronts.ink (fronts : Fronts cs k []) : ∀ c ∈ cs, isBlank c = false := by
  cases fronts with
  | intro signed some digits stop =>
    rw [List.append_nil]
    refine List.forall_mem_append.mpr ⟨?_, fun c inside => ink_of_digit (digits c inside)⟩
    cases signed <;> simp [isBlank]

theorem Fronts.body? (fronts : Fronts cs k []) : body? cs = some (.int k) := by
  have read := fronts.decimal?
  cases fronts with
  | intro signed some digits stop =>
    rename_i sign ds negative
    rw [List.append_nil] at read ⊢
    unfold Numeral.body?
    split
    · rename_i letter more whole
      split
      · rename_i base radix
        -- behind a zero in front, which is no sign, there are digits only
        have inside : letter ∈ ds := by
          cases signed with
          | none => simp [show ds = _ from whole]
          | plus | minus => simp at whole
        obtain ⟨d, value⟩ := Option.isSome_iff_exists.mp (digits letter inside)
        cases (not_digit_of_letter (mem_letters_of_radixBase? radix)).symm.trans value
      · exact whole ▸ read
    · exact read

theorem Fronts.spelled? (fronts : Fronts cs k []) : spelled? cs = some (.int k) := by
  rw [Numeral.spelled?, trim_of_ink fronts.ink]
  exact fronts.body?

/-- A text with too many digits is a sign and digits, white space aside. -/
theorem exists_of_tooLong (long : tooLong cs = true) : ∃ sign ds negative, trim cs = sign ++ ds ∧
    Sign sign negative ∧ ds ≠ [] ∧ (∀ c ∈ ds, isDecimal c = true) ∧ digitLimit < ds.length := by
  obtain ⟨sign, signed, whole⟩ := exists_sign (trim cs)
  obtain ⟨ds, rest, body, digits, stop⟩ := exists_run (splitSign (trim cs)).2
  rw [tooLong, body, digitRun_front digits stop] at long
  cases rest with
  | cons => cases long
  | nil =>
    rw [List.append_nil] at body
    have many : digitLimit < ds.length := by simpa [length_digitRun digits] using long
    refine ⟨sign, ds, _, body ▸ whole, signed, ?_, digits, many⟩
    rintro rfl
    cases many

theorem fronts_of_tooLong (long : tooLong cs = true) : ∃ k, Fronts (trim cs) k [] := by
  obtain ⟨sign, ds, negative, whole, signed, some, digits, -⟩ := exists_of_tooLong long
  rw [whole, ← List.append_nil (sign ++ ds)]
  exact ⟨_, .intro signed some digits nofun⟩

theorem longFront_of_tooLong (long : tooLong cs = true) : LongFront cs := by
  obtain ⟨sign, ds, negative, whole, signed, some, digits, many⟩ := exists_of_tooLong long
  obtain ⟨gap, text, blank⟩ := exists_trim cs
  have stop : ∀ c ∈ gap.head?, digitValue? c = none := fun c head =>
    digitValue?_of_isBlank (blank c (List.mem_of_mem_head? head))
  rwa [LongFront, text, whole, splitSign_digits signed some digits, digitRun_front digits stop,
    length_digitRun digits]

theorem not_tooLong_of_length (short : cs.length ≤ digitLimit) : tooLong cs = false := by
  refine Bool.eq_false_iff.mpr fun long => ?_
  obtain ⟨sign, ds, negative, whole, -, -, -, many⟩ := exists_of_tooLong long
  obtain ⟨gap, text, -⟩ := exists_trim cs
  have trimmed := congrArg List.length text
  have dropped := (List.dropWhile_sublist isBlank (l := cs)).length_le
  rw [whole, List.length_append, List.length_append] at trimmed
  omega

theorem parse?_eq_ok {r : Option Number} :
    parse? cs = .ok r ↔ tooLong cs = false ∧ spelled? cs = r := by
  rw [parse?]
  cases tooLong cs <;> simp

theorem parse?_eq_error {f : Fault} :
    parse? cs = .error f ↔ f = .tooManyDigits ∧ tooLong cs = true := by
  rw [parse?]
  cases tooLong cs <;> simp [eq_comm]

/-- What spells no number has not too many digits of one either. -/
theorem parse?_of_spelled?_none (nothing : spelled? cs = none) : parse? cs = .ok none := by
  refine parse?_eq_ok.mpr ⟨Bool.eq_false_iff.mpr fun long => ?_, nothing⟩
  obtain ⟨k, fronts⟩ := fronts_of_tooLong long
  cases fronts.body?.symm.trans nothing

/-! ## What numerals have in front -/

theorem spelled?_cases {m : Number} (spells : spelled? cs = some m) :
    (Based cs ∧ ∃ i : Nat, m = .int i) ∨ (¬Based cs ∧ decimal? (trim cs) = some m) := by
  rw [Numeral.spelled?] at spells
  unfold Numeral.body? at spells
  split at spells
  · rename_i letter digits whole
    cases radix : radixBase? letter with
    | none =>
      refine .inr ⟨?_, by simpa [radix, whole] using spells⟩
      rintro ⟨letter', digits', whole', letters⟩
      obtain ⟨rfl, -⟩ : letter' = letter ∧ digits' = digits := by
        simpa using (whole'.symm.trans whole)
      have all : ("xXoObB".toList.all fun c => (radixBase? c).isSome) = true := by decide
      simpa [radix] using List.all_eq_true.mp all letter' letters
    | some base =>
      refine .inl ⟨⟨letter, digits, whole, mem_letters_of_radixBase? radix⟩, ?_⟩
      simp only [radix, radixDigits?] at spells
      split at spells
      · split at spells
        · cases spells
          exact ⟨_, rfl⟩
        · cases spells
      · cases spells
  · rename_i other
    refine .inr ⟨?_, spells⟩
    rintro ⟨letter, digits, whole, -⟩
    exact other letter digits whole

/-- Digits alone are a whole number; without a point all else is a power behind digits. -/
theorem unsigned?_cases {m : Number} (spells : unsigned? negative cs = some m) :
    ∃ ds rest, cs = ds ++ rest ∧ (∀ c ∈ ds, isDecimal c = true) ∧
      (∀ c ∈ rest.head?, digitValue? c = none) ∧
      ((ds ≠ [] ∧ rest = [] ∧ m = .int (signedInt negative (natOfDigits 10 (digitRun ds).1))) ∨
        ∃ d, m = .double d ∧ ('.' ∉ cs → ds ≠ [] ∧
          ∃ mark power, rest = mark :: power ∧ (mark = 'e' ∨ mark = 'E'))) := by
  obtain ⟨ds, rest, rfl, digits, stop⟩ := exists_run cs
  refine ⟨ds, rest, rfl, digits, stop, ?_⟩
  rw [unsigned?, digitRun_front digits stop] at spells
  have filled (some : (digitRun ds).1 = [] → False) : ds ≠ [] := by
    rintro rfl
    exact some rfl
  split at spells
  · rename_i more shape
    obtain ⟨-, rfl⟩ := Prod.mk.inj shape
    split at spells
    · cases spells
    · obtain ⟨e, -, rfl⟩ := Option.map_eq_some_iff.mp spells
      exact .inr ⟨_, rfl, fun undotted => by simp at undotted⟩
  · cases spells
  · rename_i nonempty shape
    obtain ⟨rfl, rfl⟩ := Prod.mk.inj shape
    exact .inl ⟨filled nonempty, rfl, (Option.some.inj spells).symm⟩
  · rename_i more _ shape
    obtain ⟨-, rfl⟩ := Prod.mk.inj shape
    obtain ⟨e, -, rfl⟩ := Option.map_eq_some_iff.mp spells
    exact .inr ⟨_, rfl, fun undotted => by simp at undotted⟩
  · rename_i nonempty more _ shape
    obtain ⟨rfl, rfl⟩ := Prod.mk.inj shape
    obtain ⟨e, powered, rfl⟩ := Option.map_eq_some_iff.mp spells
    refine .inr ⟨_, rfl, fun _ => ⟨filled nonempty, ?_⟩⟩
    cases rest with
    | nil => exact (more rfl).elim
    | cons mark power =>
      refine ⟨mark, power, rfl, ?_⟩
      by_contra other
      simp only [not_or] at other
      simp [exponent?, other] at powered

theorem decimal?_cases {m : Number} (spells : decimal? cs = some m) :
    (∃ negative, m = .double (.infinity negative)) ∨
      ∃ negative body sign, Sign sign negative ∧ cs = sign ++ body ∧
        unsigned? negative body = some m := by
  obtain ⟨sign, signed, whole⟩ := exists_sign cs
  rw [decimal?] at spells
  simp only at spells
  split at spells
  · exact .inl ⟨_, (Option.some.inj spells).symm⟩
  · exact .inr ⟨_, _, sign, signed, whole, spells⟩

theorem toInt?_infinity (negative : Bool) : (Double.infinity negative).toInt? = none := by
  cases negative <;> rfl

theorem fronts_of_based (based : Based cs) : ∃ rest, Fronts (trim cs) 0 rest := by
  obtain ⟨letter, digits, whole, letters⟩ := based
  refine ⟨letter :: digits, ?_⟩
  rw [whole]
  have zero : ∀ c ∈ ['0'], isDecimal c = true := List.forall_mem_singleton.mpr (by decide)
  exact .intro .none (by simp) zero fun c head => by
    cases head
    exact not_digit_of_letter letters

theorem fronts_of_whole (plain : ¬Based cs) (spells : spelled? cs = some (.int n)) :
    Fronts (trim cs) n [] := by
  obtain ⟨based, -⟩ | ⟨-, decimal⟩ := spelled?_cases spells
  · exact absurd based plain
  obtain ⟨_, ⟨⟩⟩ | ⟨negative, body, sign, signed, whole, read⟩ := decimal?_cases decimal
  obtain ⟨ds, rest, rfl, digits, stop, ⟨nonempty, rfl, same⟩ | ⟨d, ⟨⟩, -⟩⟩ := unsigned?_cases read
  rw [whole, ← List.append_assoc, Number.int.inj same]
  exact .intro signed nonempty digits stop

/-- A whole number that is spelled as no row of digits has digits and a power. -/
theorem fronts_of_power {d : Double} (undotted : '.' ∉ cs) (spells : spelled? cs = some (.double d))
    (whole : d.toInt? = some n) :
    ∃ front mark power k, trim cs = front ++ mark :: power ∧ (mark = 'e' ∨ mark = 'E') ∧
      Fronts front k [] ∧ Fronts (trim cs) k (mark :: power) := by
  obtain ⟨-, i, ⟨⟩⟩ | ⟨-, decimal⟩ := spelled?_cases spells
  obtain ⟨negative, same⟩ | ⟨negative, body, sign, signed, text, read⟩ := decimal?_cases decimal
  · rw [Number.double.inj same, toInt?_infinity] at whole
    cases whole
  obtain ⟨ds, rest, rfl, digits, stop, ⟨-, -, ⟨⟩⟩ | ⟨_, -, powered⟩⟩ := unsigned?_cases read
  obtain ⟨nonempty, mark, power, rfl, letter⟩ := powered fun dotted => by
    have inside : '.' ∈ trim cs := text ▸ List.mem_append_right sign dotted
    exact undotted (mem_of_mem_trim inside)
  rw [text]
  have alone : Fronts (sign ++ ds ++ []) _ [] := .intro signed nonempty digits nofun
  rw [List.append_nil] at alone
  rw [← List.append_assoc]
  exact ⟨sign ++ ds, mark, power, _, rfl, letter, alone, .intro signed nonempty digits stop⟩

/-- The digits at the front are too many just when they are too many by themselves. -/
theorem Fronts.longFront_iff {front tail : List Char} (alone : Fronts front k [])
    (text : trim cs = front ++ tail) (stop : ∀ c ∈ tail.head?, digitValue? c = none) :
    LongFront cs ↔ tooLong front = true := by
  have ink := trim_of_ink alone.ink
  obtain ⟨gap, whole, blank⟩ := exists_trim cs
  have stops : ∀ c ∈ (tail ++ gap).head?, digitValue? c = none := by
    cases tail with
    | nil => exact fun c head => digitValue?_of_isBlank (blank c (List.mem_of_mem_head? head))
    | cons => exact stop
  cases alone with
  | intro signed some digits =>
    rw [tooLong, ink, LongFront, whole, text, List.append_assoc, List.append_nil,
      splitSign_digits signed some digits, digitRun_front digits stops, length_digitRun digits,
      ← List.append_nil (_ ++ _), splitSign_digits signed some digits, List.append_nil,
      digitRun_alone digits]
    simp [length_digitRun digits]

theorem Fronts.tooLong_trim (fronts : Fronts (trim cs) k []) : tooLong (trim cs) = tooLong cs := by
  rw [tooLong, tooLong, trim_of_ink fronts.ink]

end Walkthrough.Numeral
