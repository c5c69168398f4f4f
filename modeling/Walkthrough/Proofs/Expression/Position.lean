import Walkthrough.Proofs.Expression.Resolution
import Walkthrough.Proofs.Number.Front

/-! Positions in lists. A part that is a numeral asks for the item at the number in front of it.
This is the number that the part spells if the part is a whole number in decimal digits, but not if
it has the sign of a base, nor in general before a power. A part that is no numeral asks for
nothing. -/
namespace Walkthrough.Expression

variable {ι : Type}

/-- What stands at a position: an item, the first one at zero, or nothing. -/
inductive StandsAt (items : List (Value ι)) : Int → Value ι → Prop where
  | item {i : Nat} {w : Value ι} (here : items[i]? = some w) : StandsAt items i w
  | nothing {n : Int} (outside : n < 0 ∨ items.length ≤ n) : StandsAt items n .missing

/-- In every list a part asks for what stands at this position. -/
def AsksFor (label : ι) (part : String) (n : Int) : Prop :=
  ∀ items, ∃ w, member (.list label items) part = .ok w ∧ StandsAt items n w

variable {label : ι} {items : List (Value ι)} {part : String} {n k : Int} {w w' : Value ι}

theorem standsAt_unique (first : StandsAt items n w) (second : StandsAt items n w') : w = w' := by
  cases first with
  | @item i _ here =>
    obtain ⟨position, same⟩ : ∃ position : Int, position = i := ⟨_, rfl⟩
    rw [← same] at second
    cases second with
    | @item j _ there =>
      obtain rfl : j = i := Int.ofNat.inj same
      exact Option.some.inj (here.symm.trans there)
    | nothing outside =>
      have inside : i < items.length := (List.getElem?_eq_some_iff.mp here).1
      omega
  | nothing outside =>
    cases second with
    | @item j _ there =>
      have inside : j < items.length := (List.getElem?_eq_some_iff.mp there).1
      omega
    | nothing _ => rfl

/-- Two positions are the same in every list just when they are equal or both before the first
item. -/
theorem same_position_iff :
    (∀ (items : List (Value ι)) w, StandsAt items k w → StandsAt items n w) ↔
      k = n ∨ (k < 0 ∧ n < 0) := by
  constructor
  · intro same
    by_cases before : k < 0
    · by_contra apart
      have inside : 0 ≤ n := by omega
      obtain ⟨i, rfl⟩ := Int.eq_ofNat_of_zero_le inside
      have there : (List.replicate (i + 1) (.null : Value ι))[i]? = some .null := by simp
      have missing : StandsAt (List.replicate (i + 1) .null) k (.missing : Value ι) :=
        .nothing (.inl before)
      cases standsAt_unique (.item there) (same _ _ missing)
    · obtain ⟨i, rfl⟩ := Int.eq_ofNat_of_zero_le (Int.not_lt.mp before)
      -- the last item differs from all others, so it stands at one position only
      obtain ⟨list, marked⟩ : ∃ list, list = List.replicate i .null ++ [(.bool true : Value ι)] :=
        ⟨_, rfl⟩
      have last : list[i]? = some (.bool true) := by simp [marked]
      have moved := same list _ (.item last)
      cases moved with
      | @item j _ there =>
        left
        have inside : j < list.length := (List.getElem?_eq_some_iff.mp there).1
        rw [marked, List.getElem?_append] at there
        rw [marked, List.length_append, List.length_replicate, List.length_singleton] at inside
        split at there
        · simp_all
        · rename_i beyond
          rw [List.length_replicate] at beyond
          omega
  · rintro (rfl | ⟨before, before'⟩)
    · exact fun _ _ stands => stands
    · intro items w stands
      obtain rfl := standsAt_unique stands (.nothing (.inl before))
      exact .nothing (.inl before')

theorem standsAt_itemAt {cs : List Char} (numeral : (Numeral.spelled? cs).isSome = true)
    (front : Numeral.intPrefix? cs = .ok (some k)) :
    ∃ w, itemAt items cs = .ok w ∧ StandsAt items k w := by
  rw [itemAt_of_spelled numeral, front]
  refine ⟨_, rfl, ?_⟩
  by_cases before : k < 0
  · simp only [before, if_true]
    exact .nothing (.inl before)
  · obtain ⟨i, rfl⟩ := Int.eq_ofNat_of_zero_le (Int.not_lt.mp before)
    simp only [before, if_false, Int.toNat_natCast]
    cases here : items[i]? with
    | none => exact .nothing (.inr (Int.ofNat_le.mpr (List.getElem?_eq_none_iff.mp here)))
    | some w => exact .item here

/-- A numeral asks for the item at the number in front of it, unless this has too many digits. -/
theorem asksFor_iff {rest : List Char} (numeral : (Numeral.spelled? part.toList).isSome = true)
    (fronts : Numeral.Fronts (Text.trim part.toList) k rest) :
    AsksFor label part n ↔ ¬Numeral.LongFront part.toList ∧ (k = n ∨ (k < 0 ∧ n < 0)) := by
  obtain ⟨more, fronts⟩ := fronts.untrimmed
  have other : part ≠ "length" := by
    rintro rfl
    revert numeral
    decide
  have found (items : List (Value ι)) :
      member (.list label items) part = itemAt items part.toList := by
    simp [member, other]
  by_cases many : Numeral.LongFront part.toList
  · simp only [many, not_true_eq_false, false_and, iff_false]
    intro asks
    obtain ⟨w, same, -⟩ := asks []
    cases ((found []).trans (itemAt_of_long numeral many)).symm.trans same
  have stands (items : List (Value ι)) : ∃ w, itemAt items part.toList = .ok w ∧ StandsAt items k w :=
    standsAt_itemAt numeral (fronts.intPrefix?.trans (if_neg many))
  rw [← same_position_iff (ι := ι), and_iff_right many]
  constructor
  · intro asks items w stands'
    obtain ⟨u, same, there⟩ := asks items
    obtain ⟨u', same', there'⟩ := stands items
    obtain rfl := standsAt_unique stands' there'
    cases ((found items).trans same').symm.trans same
    exact there
  · intro same items
    obtain ⟨w, at', there⟩ := stands items
    exact ⟨w, (found items).trans at', same items w there⟩

theorem asksFor_based (numeral : (Numeral.spelled? part.toList).isSome = true)
    (based : Numeral.Based part.toList) : AsksFor label part n ↔ n = 0 := by
  obtain ⟨rest, fronts⟩ := Numeral.fronts_of_based based
  have short : ¬Numeral.LongFront part.toList := by
    obtain ⟨letter, digits, whole, letters⟩ := based
    have zero : Numeral.Fronts ['0'] 0 [] := .intro .none (List.cons_ne_nil _ _)
      (List.forall_mem_singleton.mpr (by decide)) nofun
    rw [zero.longFront_iff whole fun c head => by cases head; exact Numeral.not_digit_of_letter letters]
    decide
  rw [asksFor_iff numeral fronts, and_iff_right short]
  omega

/-- A whole number in decimal digits asks for the item that it counts; one in another base asks for
the first item, so only zero does; digits before a power ask for the item that they count, if they
can be read. What is no numeral asks for nothing. -/
theorem asksFor_numeral (label : ι) (part : String) :
    (∀ n, Numeral.parse? part.toList = .ok (some (.int n)) →
      (AsksFor label part n ↔ ¬(Numeral.Based part.toList ∧ n ≠ 0))) ∧
    (∀ d n, Numeral.parse? part.toList = .ok (some (.double d)) → d.toInt? = some n →
      '.' ∉ part.toList → ∃ front mark power k,
        Text.trim part.toList = front ++ mark :: power ∧ (mark = 'e' ∨ mark = 'E') ∧
          Numeral.spelled? front = some (.int k) ∧
          (AsksFor label part n ↔
            Numeral.parse? front = .ok (some (.int k)) ∧ (k = n ∨ (k < 0 ∧ n < 0)))) ∧
    (Numeral.parse? part.toList = .ok none → Text.allBlank part.toList = false → part ≠ "length" →
      ∀ items, member (.list label items) part = .ok .missing) := by
  refine ⟨fun n read => ?_, fun d n read whole undotted => ?_, fun read solid other items => ?_⟩
  · obtain ⟨short, spells⟩ := Numeral.parse?_eq_ok.mp read
    have numeral : (Numeral.spelled? part.toList).isSome = true := by simp [spells]
    by_cases based : Numeral.Based part.toList
    · rw [asksFor_based numeral based]
      simp [based]
    · have fronts := Numeral.fronts_of_whole based spells
      have few : ¬Numeral.LongFront part.toList := by
        rw [fronts.longFront_iff (List.append_nil _).symm nofun, fronts.tooLong_trim]
        simp [short]
      rw [asksFor_iff numeral fronts]
      simp [based, few]
  · obtain ⟨-, spells⟩ := Numeral.parse?_eq_ok.mp read
    obtain ⟨front, mark, power, k, text, letter, alone, fronts⟩ :=
      Numeral.fronts_of_power undotted spells whole
    have numeral : (Numeral.spelled? part.toList).isSome = true := by simp [spells]
    have stop : ∀ c ∈ (mark :: power).head?, Text.digitValue? c = none := by
      rintro c ⟨⟩
      rcases letter with rfl | rfl <;> decide
    refine ⟨front, mark, power, k, text, letter, alone.spelled?, ?_⟩
    rw [asksFor_iff numeral fronts, alone.longFront_iff text stop, Numeral.parse?_eq_ok,
      Bool.not_eq_true, and_iff_left alone.spelled?]
  · have nothing := (Numeral.parse?_eq_ok.mp read).2
    simp [member, other, itemAt_of_unspelled nothing]

theorem asksFor_numeral_spaced : AsksFor () " +02 " 2 ∧ ¬AsksFor () "1e1" 10 ∧
    ∀ items : List Data, member (.list () items) "1st" = .ok .missing := by
  refine ⟨?_, ?_, (asksFor_numeral () "1st").2.2 (by decide) (by decide) (by decide)⟩
  · have trimmed : Text.trim " +02 ".toList = ['+', '0', '2'] := by decide
    refine ((asksFor_numeral () " +02 ").1 2 (by decide)).mpr fun based => ?_
    obtain ⟨letter, digits, whole, -⟩ := based.1
    cases trimmed.symm.trans whole
  · have ten : (Double.ofDecimal false 1 1).toInt? = some 10 := by decide +kernel
    obtain ⟨front, mark, power, k, text, letter, alone, asks⟩ :=
      (asksFor_numeral () "1e1").2.1 (.ofDecimal false 1 1) 10 rfl ten (by decide)
    have trimmed : Text.trim "1e1".toList = ['1', 'e', '1'] := by decide
    rw [trimmed] at text
    have one : front = ['1'] := by
      rcases front with _ | ⟨a, _ | ⟨b, _ | ⟨c, front⟩⟩⟩ <;> simp at text <;> grind
    have spelled : Numeral.spelled? ['1'] = some (.int 1) := by decide
    cases spelled.symm.trans (one ▸ alone)
    simp [asks]

/-- The sign of a base is read as zero, so what follows it does not count. -/
theorem not_asksFor_based :
    Numeral.parse? "0x1".toList = .ok (some (.int 1)) ∧ ¬AsksFor () "0x1" 1 := by
  refine ⟨by decide, fun asks => ?_⟩
  obtain ⟨w, found, stands⟩ := asks [.null, .bool true]
  have first : member (.list () [.null, .bool true]) "0x1" = .ok (.null : Data) := rfl
  cases first.symm.trans found
  have second : StandsAt [(.null : Data), .bool true] 1 (.bool true) := .item (i := 1) rfl
  cases standsAt_unique stands second

end Walkthrough.Expression
