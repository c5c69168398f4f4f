import Walkthrough.Proofs.Expression.Compound
import Walkthrough.Proofs.Expression.Printing
import Walkthrough.Proofs.Number.Limit

/-! Literals are read back as what they were written for. What is shown of a number is one word,
unless a power with a sign stands in it: there an operator divides it, and two words are left. -/
namespace Walkthrough

namespace Expression

open Numeral

variable {d : Double}

theorem isWord_signed {cs : List Char} (some : cs ≠ []) (all : ∀ c ∈ cs, c ∈ figures) :
    IsWord (d.signed cs) := by
  refine isWord_of_figures ?_ ?_ <;> rw [Double.signed, String.toList_ofList] <;> split
  · exact List.cons_ne_nil _ _
  · exact some
  · exact List.forall_mem_cons.mpr ⟨by decide, all⟩
  · exact all

theorem isWord_of_spelled {cs : List Char} (spelled : Spelled figures cs) : IsWord (d.signed cs) := by
  obtain ⟨c, rest, text, -⟩ := spelled.front
  exact isWord_signed (text ▸ List.cons_ne_nil c rest) spelled.all

theorem isWord_plainText (number : d.isNaN = false) (small : ¬d.Vast) : IsWord d.plainText := by
  have shown := Double.shown_plainText number
  generalize d.plainText = s at shown
  cases shown with
  | infinite => exact isWord_signed (by decide) Double.mem_figures_of_infinity
  | whole => exact isWord_toString _
  | fraction finite fraction =>
    exact isWord_of_spelled (Decimal.spelled_positional (Double.places_of_fraction finite fraction).1)
  | tiny finite fraction behind =>
    refine isWord_of_spelled (Decimal.spelled_scientific.mono fun c inside => ?_)
    rw [powerSign, if_pos behind] at inside
    rcases List.mem_cons.mp inside with rfl | inside
    · decide
    · exact inside
  | vast vast => exact absurd vast small

theorem reads_number (number : d.isNaN = false) (small : ¬d.Vast) :
    ∃ n, Reads 8 d.plainText.toList (.literal (.number n)) ∧ n.equals (.double d) = true := by
  obtain ⟨n, read, same⟩ := Double.parse?_plainText number
  have word := isWord_plainText number small
  exact ⟨n, .leaf word (leaf_of_number word read), same⟩

/-- A plus between two texts without white space. -/
theorem Reads.sum {cs ds : List Char} {e e' : Expr} (left : Reads 6 cs e) (right : Reads 6 ds e') :
    Reads 5 (cs ++ '+' :: ds) (.concat [e, e']) := by
  intro gap blank
  obtain ⟨ts, written, holds, rfl⟩ := left gap blank
  obtain ⟨us, written', holds', rfl⟩ := right [] rfl
  have parts : ∀ p ∈ [ts, us], Holds 6 p := by simpa using ⟨holds, holds'⟩
  have covers : textBehind (sign .plus [] :: us) = '+' :: ds := by
    rw [textBehind_cons, written'.covers]
    rfl
  have shown : joined (sign .plus []) ts [us] = ts ++ sign .plus [] :: us := by simp [joined]
  refine ⟨joined (sign .plus []) ts [us], ?_, ?_, readAt_concat rfl parts⟩
  · rw [shown]
    exact written.append covers (apart_cons rfl _) fun rest after =>
      ⟨heads_sign rfl (by decide) fun pair => absurd pair (by decide), written'.legible rest after⟩
  · exact holds_joined rfl (by decide) (by decide) (by decide) parts
      fun _ _ _ _ => isThenMark_of_other (by decide)

theorem plainText_of_vast (vast : d.Vast) : d.plainText = d.signed (d.shortest.scientific 1) := by
  have finite := vast.1
  simp only [Double.isFinite, Bool.and_eq_true, Bool.not_eq_true'] at finite
  have shown := Double.shown_plainText finite.1
  generalize d.plainText = s at shown
  cases shown with
  | infinite infinite =>
    rw [finite.2] at infinite
    cases infinite
  | whole whole small => exact absurd ((Double.vast_iff_of_whole whole).mp vast) (Nat.not_le.mpr small)
  | fraction finite fraction => exact absurd vast (Double.places_of_fraction finite fraction).2.2
  | tiny finite fraction => exact absurd vast (Double.places_of_fraction finite fraction).2.2
  | vast => rfl

/-- The sign of the power divides the text. -/
theorem reads_vast (vast : d.Vast) : ∃ e e', Reads 5 d.plainText.toList (.concat [e, e']) := by
  obtain ⟨front, text, spelled⟩ := d.shortest.exists_scientific
  have positive : powerSign d.shortest.spread.2 = '+' :=
    if_neg (Int.not_lt.mpr vast.first_nonneg)
  have digits : IsWord (String.ofList (Nat.toDigits 10 d.shortest.spread.2.natAbs)) := by
    refine isWord_of_figures ?_ ?_ <;> rw [String.toList_ofList]
    · exact Nat.toDigits_ne_nil
    · exact fun c inside => mem_figures_of_digit (mem_toDigits inside)
  have reads := ((Reads.word (isWord_of_spelled (d := d) spelled)).mono (by decide)).sum
    ((Reads.word digits).mono (by decide))
  have divided : d.plainText.toList = (d.signed front).toList ++
      '+' :: (String.ofList (Nat.toDigits 10 d.shortest.spread.2.natAbs)).toList := by
    simp only [plainText_of_vast vast, Double.signed, text, powerText, positive, String.toList_ofList]
    split <;> rfl
  exact ⟨_, _, divided ▸ reads⟩

/-- A text that is read somewhere is not blank and has the value of what it is read as. -/
theorem Reads.evaluateStrict_eq {n : Nat} {text : String} {e : Expr} (reads : Reads n text.toList e)
    (context : Data) :
    evaluateStrict text context = (e.outcome context).mapError (.failed text) := by
  obtain ⟨ts, written, holds, -⟩ := reads [] rfl
  have covers : text.toList = textBehind ts ++ [] := by
    rw [written.covers, List.append_nil, List.nil_append]
  have spells : Spells text.toList ts [] :=
    ⟨covers, written.legible [] apart_nil, rfl, holds.nested, written.solid⟩
  exact evaluateStrict_of_parse spells.solid_text (reads.parse_eq rfl) context

end Expression

/-- The literals of a value: its text, or where the value is a text that text between quotes. -/
inductive Scalar.Literal : Scalar → String → Prop
  | null {s : String} (shown : (Value.null : Data).string = .ok s) : Literal .null s
  | bool {b : Bool} {s : String} (shown : (Value.bool b : Data).string = .ok s) : Literal (.bool b) s
  | number {n : Number} {s : String} (number : n.isNaN = false)
      (shown : (Value.number n : Data).string = .ok s) : Literal (.number n) s
  | text {quote : Char} {s : String} (quotable : Expression.QuotableBy quote s) :
    Literal (.text s) (String.ofList (Expression.inQuotes quote s))

/-- The value is this one, where numbers are compared by size. -/
def Scalar.Agrees : Scalar → Data → Prop
  | .number m, .number n => n.equals m = true
  | v, w => w = .atom v

/-- A double whose text has a power with a sign. -/
def Scalar.Vast : Scalar → Prop
  | .number (.double d) => d.Vast
  | _ => False

namespace Expression

variable {v : Scalar} {text : String}

/-- A literal without a signed power is read as a value that agrees with its own. -/
theorem reads_literal_of_small (literal : v.Literal text) (small : ¬v.Vast) :
    ∃ w, Reads 8 text.toList (.literal w) ∧ v.Agrees (Value.atom w).normalize := by
  cases literal with
  | null shown =>
    cases shown
    exact ⟨.null, reads_literal .null, rfl⟩
  | @bool b _ shown =>
    cases shown
    exact ⟨.bool b, reads_literal (.bool b), rfl⟩
  | @number n _ number shown =>
    obtain ⟨few, rfl⟩ := Number.written_eq_ok.mp shown
    cases n with
    | int n =>
      have reads := reads_literal (.int n)
      rw [rereadScalar, if_neg (Nat.not_lt.mpr few)] at reads
      exact ⟨.number (.int n), reads, Number.equals_self number⟩
    | double d =>
      rw [Number.isNaN_double] at number
      obtain ⟨m, reads, same⟩ := reads_number number small
      exact ⟨.number m, reads, same⟩
  | @text quote s quotable =>
    refine ⟨.text s, ?_, rfl⟩
    rw [String.toList_ofList]
    exact .inQuotes quotable

theorem reads_literal_of_vast (literal : v.Literal text) (vast : v.Vast) :
    ∃ e e', Reads 5 text.toList (.concat [e, e']) := by
  cases literal with
  | null | bool | text => exact vast.elim
  | @number n _ _ shown =>
    obtain ⟨-, rfl⟩ := Number.written_eq_ok.mp shown
    cases n with
    | int n => exact vast.elim
    | double d => exact reads_vast vast

theorem number_of_agrees {w : Data} (vast : v.Vast) (agrees : v.Agrees w) : ∃ n, w = .number n := by
  cases v with
  | number n =>
    rw [Scalar.Agrees.eq_def] at agrees
    split at agrees
    · exact ⟨_, rfl⟩
    · exact ⟨_, agrees⟩
  | null | missing | bool | text | date | instant => exact vast.elim

theorem value_literal (s : Scalar) (context : Data) :
    (Expr.literal s).value context = .ok (Value.atom s).normalize := by
  cases s <;> rfl

theorem text_of_sum {a b : Expr} {context w : Data}
    (found : (Expr.concat [a, b]).value context = .ok w) : ∃ s, w = .text s := by
  rw [value_concat, bind_eq_ok] at found
  obtain ⟨x, -, found⟩ := found
  obtain ⟨first, -, found⟩ := bind_eq_ok.mp found
  obtain ⟨y, -, found⟩ := bind_eq_ok.mp found
  obtain ⟨second, -, found⟩ := bind_eq_ok.mp found
  exact ⟨_, (Except.ok.inj found).symm⟩

theorem evaluateStrict_literal (literal : v.Literal text) (context : Data) :
    (∃ w, evaluateStrict text context = .ok w ∧ v.Agrees w) ↔ ¬v.Vast := by
  constructor
  · rintro ⟨w, found, agrees⟩ vast
    obtain ⟨n, rfl⟩ := number_of_agrees vast agrees
    obtain ⟨e, e', reads⟩ := reads_literal_of_vast literal vast
    rw [reads.evaluateStrict_eq, Expr.outcome] at found
    split at found
    · cases sum : (Expr.concat [e, e']).value context with
      | error fault =>
        rw [sum] at found
        cases found
      | ok u =>
        rw [sum] at found
        obtain ⟨s, rfl⟩ := text_of_sum sum
        cases found
    · cases found
  · intro small
    obtain ⟨w, reads, agrees⟩ := reads_literal_of_small literal small
    refine ⟨_, ?_, agrees⟩
    rw [reads.evaluateStrict_eq, Expr.outcome_of_readable rfl, value_literal]
    rfl

/-- In every context a literal is read back as its value, but for the literals of vast doubles, which
never are. -/
theorem evaluate_literal (literal : v.Literal text) (context : Data) :
    ((∃ w, evaluateStrict text context = .ok w ∧ v.Agrees w) ↔ ¬v.Vast) ∧
      (v.Agrees (evaluate (.text text) context) ↔ ¬v.Vast) := by
  refine ⟨evaluateStrict_literal literal context, ?_⟩
  rw [evaluate, evaluateText]
  generalize (if context.isVoid then .emptyMap else context) = filled
  have strict := evaluateStrict_literal literal filled
  by_cases vast : v.Vast
  · refine iff_of_false (fun agrees => ?_) (not_not.mpr vast)
    cases found : evaluateStrict text filled with
    | ok w =>
      rw [found] at agrees
      exact strict.mp ⟨w, found, agrees⟩ vast
    | error e =>
      rw [found] at agrees
      obtain ⟨n, null⟩ := number_of_agrees vast agrees
      cases null
  · obtain ⟨w, found, agrees⟩ := strict.mpr vast
    rw [found]
    exact iff_of_true agrees vast

theorem evaluate_literal_tiny :
    let v := Scalar.number (.double (.ofDecimal true 1 (-7)))
    v.Literal "-1e-7" ∧ (∃ w, evaluateStrict "-1e-7" .emptyMap = .ok w ∧ v.Agrees w) ∧
      v.Agrees (evaluate (.text "-1e-7") .emptyMap) := by
  intro v
  have literal : v.Literal "-1e-7" := .number (by decide +kernel) (by decide +kernel)
  have small : ¬v.Vast := by
    change ¬Double.Vast _
    rw [Double.Vast]
    decide +kernel
  obtain ⟨strict, lenient⟩ := evaluate_literal literal .emptyMap
  exact ⟨literal, strict.mpr small, lenient.mpr small⟩

/-- The path in front of the plus finds nothing, and the power behind it is what is left. -/
theorem evaluate_literal_divided :
    let v := Scalar.number (.double (.ofInt (10 ^ 21)))
    v.Literal "1e+21" ∧ evaluateStrict "1e+21" .emptyMap = .ok (.text "21") ∧
      ¬v.Agrees (evaluate (.text "1e+21") .emptyMap) := by
  intro v
  have literal : v.Literal "1e+21" := .number (by decide +kernel) (by decide +kernel)
  have left : Reads 8 "1e".toList (.path "1e") :=
    .leaf (by decide) (leaf_of_path (by decide) (by decide) (by decide))
  have right : Reads 8 "21".toList (.literal (.number (.int 21))) :=
    .leaf (by decide) (leaf_of_number (by decide) (by decide))
  have reads : Reads 5 "1e+21".toList _ := (left.mono (by decide)).sum (right.mono (by decide))
  have found : evaluateStrict "1e+21" .emptyMap = .ok (.text "21") := by
    rw [reads.evaluateStrict_eq, Expr.outcome_of_readable rfl, value_concat, value_literal]
    rfl
  refine ⟨literal, found, ?_⟩
  rw [evaluate, evaluateText, if_pos (by rfl), found]
  rintro ⟨⟩

end Expression

end Walkthrough
