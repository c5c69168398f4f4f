import Walkthrough.Calendar.Instant
import Walkthrough.Proofs.Number.Front
import Walkthrough.Proofs.Number.Notation

/-! The limit on digits. A text beyond it is a run of digits with a sign and white space around; so
of the texts that values are shown as, only those of texts and whole numbers can go beyond it. -/
namespace Walkthrough

namespace Numeral

open Text

variable {cs ds : List Char} {c : Char}

/-- White space, a sign and too many digits, and white space. -/
theorem exists_pieces_of_tooLong (long : tooLong cs = true) : ∃ front sign ds behind negative,
    cs = front ++ sign ++ ds ++ behind ∧ (∀ c ∈ front ++ behind, isBlank c = true) ∧
      Sign sign negative ∧ (∀ c ∈ ds, isDecimal c = true) := by
  obtain ⟨behind, text, blank⟩ := exists_trim cs
  obtain ⟨sign, ds, negative, whole, signed, -, digits, -⟩ := exists_of_tooLong long
  refine ⟨cs.takeWhile isBlank, sign, ds, behind, _, ?_, ?_, signed, digits⟩
  · rw [List.append_assoc _ sign, ← whole, List.append_assoc, ← text,
      List.takeWhile_append_dropWhile]
  · exact List.forall_mem_append.mpr ⟨fun c inside => List.mem_takeWhile_imp inside, blank⟩

theorem mem_of_tooLong (long : tooLong cs = true) (inside : c ∈ cs) :
    isBlank c = true ∨ c = '+' ∨ c = '-' ∨ isDecimal c = true := by
  obtain ⟨front, sign, ds, behind, negative, rfl, blank, signed, digits⟩ := exists_pieces_of_tooLong long
  simp only [List.mem_append] at inside
  rcases inside with ((front | sign) | digit) | behind
  · exact .inl (blank c (List.mem_append_left _ front))
  · cases signed <;> simp at sign <;> simp [sign]
  · exact .inr (.inr (.inr (digits c digit)))
  · exact .inl (blank c (List.mem_append_right _ behind))

/-- A character that neither a sign, a digit nor white space is stands in no whole number. -/
theorem not_tooLong_of_mem (inside : c ∈ cs)
    (other : isBlank c = false ∧ c ≠ '+' ∧ c ≠ '-' ∧ isDecimal c = false) : tooLong cs = false := by
  refine Bool.eq_false_iff.mpr fun long => ?_
  have one := mem_of_tooLong long inside
  simp [other] at one

theorem not_allBlank_of_tooLong (long : tooLong cs = true) : allBlank cs = false := by
  obtain ⟨sign, ds, negative, whole, -, some, digits, -⟩ := exists_of_tooLong long
  obtain ⟨d, more, rfl⟩ := List.exists_cons_of_ne_nil some
  have inside : d ∈ cs := mem_of_mem_trim (by simp [whole])
  have ink : isBlank d = false := ink_of_digit (digits d List.mem_cons_self)
  rw [allBlank, List.all_eq_false]
  exact ⟨d, inside, by simp [ink]⟩

theorem count_of_tooLong (long : tooLong cs = true) : cs.count '-' ≤ 1 := by
  obtain ⟨front, sign, ds, behind, negative, rfl, blank, signed, digits⟩ := exists_pieces_of_tooLong long
  have none {cs : List Char} (other : '-' ∉ cs) : cs.count '-' = 0 := List.count_eq_zero.mpr other
  have before : '-' ∉ front := fun inside => by cases blank _ (List.mem_append_left _ inside)
  have after : '-' ∉ behind := fun inside => by cases blank _ (List.mem_append_right _ inside)
  have middle : '-' ∉ ds := fun inside => by cases digits _ inside
  rw [List.count_append, List.count_append, List.count_append, none before, none after, none middle]
  cases signed <;> decide

end Numeral

open Numeral

theorem not_tooLong_plainText (d : Double) : tooLong d.plainText.toList = false := by
  by_cases nan : d.isNaN
  · rw [Double.plainText, if_pos nan]
    decide
  have shown := Double.shown_plainText (Bool.eq_false_iff.mpr nan)
  generalize d.plainText = s at shown
  have kept {c : Char} {cs : List Char} (inside : c ∈ cs) : c ∈ (d.signed cs).toList := by
    rw [Double.signed, String.toList_ofList]
    split
    · exact List.mem_cons_of_mem _ inside
    · exact inside
  have power : 'e' ∈ d.shortest.scientific 1 := by
    simp [Decimal.scientific]
  cases shown with
  | infinite => exact not_tooLong_of_mem (kept (show 'I' ∈ infinityWord by decide)) (by decide)
  | whole whole small =>
    rw [tooLong_toString, decide_eq_false_iff_not, Nat.not_lt]
    have length := (Nat.length_toDigits_le_iff (b := 10) (by decide) (by decide)).mpr small
    exact Nat.le_trans length (by decide)
  | fraction finite fraction =>
    obtain ⟨behind, -⟩ := Double.places_of_fraction finite fraction
    obtain ⟨front, frac, text, -⟩ := Decimal.exists_positional behind
    have point : '.' ∈ d.shortest.positional := by simp [text]
    exact not_tooLong_of_mem (kept point) (by decide)
  | tiny | vast => exact not_tooLong_of_mem (kept power) (by decide)

theorem Double.parse?_plainText {d : Double} (number : d.isNaN = false) :
    ∃ n, parse? d.plainText.toList = .ok (some n) ∧ n.equals (.double d) = true := by
  obtain ⟨n, read, same⟩ := Double.spelled?_plainText number
  exact ⟨n, parse?_eq_ok.mpr ⟨not_tooLong_plainText d, read⟩, same⟩

theorem not_tooLong_isoText (d : Date) : tooLong d.isoText.toList = false := by
  refine Bool.eq_false_iff.mpr fun long => ?_
  have few := count_of_tooLong long
  simp [Date.isoText] at few
  omega

theorem Instant.not_tooLong_isoText (t : Instant) : tooLong t.isoText.toList = false := by
  have inside : 'T' ∈ t.isoText.toList := by simp [Instant.isoText, Instant.text]
  exact not_tooLong_of_mem inside (by decide)

end Walkthrough
