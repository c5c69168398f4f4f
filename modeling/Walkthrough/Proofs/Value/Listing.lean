import Walkthrough.Proofs.Attempt
import Walkthrough.Proofs.Number.Decimal
import Walkthrough.Value.Coercion
import Walkthrough.Value.Listing

/-! How the text of a value begins. Only text is shown as it stands; any other value begins with a
digit, a sign, a bracket or one of a few letters, so no value passes for a word that begins
otherwise, and what is shown is empty for empty text alone. -/
namespace Walkthrough

open Numeral

/-- The characters with which values begin that are not text. -/
def listingMarks : List Char := asciiDigits ++ "-ni[\x7bNUTF".toList

def Marked (cs : List Char) : Prop := ∃ c ∈ listingMarks, cs.head? = some c

namespace Marked

variable {cs : List Char} {c : Char}

theorem cons (mark : c ∈ listingMarks) : Marked (c :: cs) := ⟨c, mark, rfl⟩

theorem append (marked : Marked cs) (more : List Char) : Marked (cs ++ more) := by
  obtain ⟨c, mark, head⟩ := marked
  exact ⟨c, mark, by simp [head]⟩

theorem toDigits (n : Nat) : Marked (Nat.toDigits 10 n) := by
  cases digits : Nat.toDigits 10 n with
  | nil => exact absurd digits Nat.toDigits_ne_nil
  | cons c cs =>
    have digit : c ∈ asciiDigits := mem_toDigits (n := n) (by simp [digits])
    exact .cons (List.mem_append_left _ digit)

theorem ne_nil (marked : Marked cs) : cs ≠ [] := by
  rintro rfl
  obtain ⟨c, -, head⟩ := marked
  cases head

theorem toString (n : Int) : Marked (toString n).toList := by
  cases n with
  | ofNat n =>
    have text : (ToString.toString (Int.ofNat n)).toList = Nat.toDigits 10 n := Nat.toList_repr
    exact text ▸ toDigits n
  | negSucc n => exact toList_negSucc n ▸ cons (by decide)

theorem positional (d : Decimal) : Marked d.positional := by
  have digits : Marked d.spread.1 := toDigits d.digits
  simp only [Decimal.positional]
  split
  · exact cons (by decide)
  · split
    · exact digits.append _
    · -- at least one digit stands before the point
      obtain ⟨c, mark, head⟩ := digits
      obtain ⟨cs, spread⟩ := List.head?_eq_some_iff.mp head
      rw [spread, List.take_succ_cons]
      exact cons mark

theorem scientific (width : Nat) (d : Decimal) : Marked (d.scientific width) := by
  obtain ⟨c, mark, head⟩ : Marked d.spread.1 := toDigits d.digits
  obtain ⟨cs, spread⟩ := List.head?_eq_some_iff.mp head
  simp only [Decimal.scientific, spread]
  cases cs <;> exact cons mark

theorem signed (d : Double) (marked : Marked cs) : Marked (d.signed cs).toList := by
  simp only [Double.signed, String.toList_ofList]
  split
  · exact cons (by decide)
  · exact marked

theorem exactText (d : Double) : Marked d.exactText.toList := by
  simp only [Double.exactText]
  split
  · exact cons (by decide)
  · split
    · exact .signed d (cons (by decide))
    · split
      · exact .signed d ((positional _).append _)
      · exact .signed d (scientific 2 _)

theorem isoText (d : Date) : Marked d.isoText.toList := by
  have year : Marked (padded 4 d.year).toList := by
    rw [padded, String.toList_ofList]
    cases 4 - (Nat.toDigits 10 d.year).length with
    | zero => exact toDigits d.year
    | succ n => exact cons (by decide)
  simp only [Date.isoText, String.toList_append, List.append_assoc]
  exact year.append _

end Marked

namespace Value

theorem shown_marked {v : Data} {text : String} (other : ∀ s, v ≠ .text s)
    (shown : v.shown = .ok text) : Marked text.toList := by
  cases v with
  | list label items =>
    obtain ⟨parts, -, rfl⟩ := map_eq_ok.mp shown
    simp only [String.toList_append, List.append_assoc]
    exact .cons (by decide)
  | map label entries =>
    obtain ⟨parts, -, rfl⟩ := map_eq_ok.mp shown
    simp only [String.toList_append, List.append_assoc]
    exact .cons (by decide)
  | atom s =>
    cases s with
    | text s => exact absurd rfl (other s)
    | number n =>
      obtain ⟨-, rfl⟩ := Number.written_eq_ok.mp shown
      cases n with
      | int n => exact .toString n
      | double d => exact .exactText d
    | null | missing =>
      cases shown
      exact .cons (by decide)
    | bool b =>
      cases shown
      cases b <;> exact .cons (by decide)
    | date d =>
      obtain rfl := Except.ok.inj shown
      exact .isoText d
    | instant t =>
      obtain rfl := Except.ok.inj shown
      simp only [Instant.text, String.toList_append, List.append_assoc]
      exact (Marked.isoText t.date).append _

/-- A value that is given does not vanish when it is shown. -/
theorem shown_ne_empty {v : Data} {text : String} (given : v.isVoid = false)
    (shown : v.shown = .ok text) : text ≠ "" := by
  rintro rfl
  by_cases word : ∃ s, v = .text s
  · obtain ⟨s, rfl⟩ := word
    cases shown
    cases given
  · have marked := shown_marked (fun s same => word ⟨s, same⟩) shown
    exact marked.ne_nil rfl

end Value

end Walkthrough
