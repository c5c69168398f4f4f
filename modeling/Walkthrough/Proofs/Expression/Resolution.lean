import Mathlib.Data.List.TakeWhile
import Walkthrough.Proofs.Attempt
import Walkthrough.Proofs.Number.Decimal
import Walkthrough.Proofs.Number.Front
import Walkthrough.Proofs.Value.Entries
import Walkthrough.Expression.Path

/-! What a path leads to. A part names at most one member of a value. A path is missing if only its
last part names nothing, and null if it goes on behind a value that is null or missing. Nothing else
can come of it, unless a part asks for a position in digits that have no decimal value or are too
many. -/
namespace Walkthrough.Expression

variable {ι : Type} {v w : Value ι} {part : String} {rest : List String}

/-- The member of a value that a part names. -/
inductive Member : Value ι → String → Value ι → Prop where
  | entry {label : ι} {entries others back : Entries ι} {part : String} {v : Value ι}
      (here : entries = others ++ (.text part, v) :: back) (first : ∀ e ∈ others, e.1 ≠ .text part) :
      Member (.map label entries) part v
  | items {label : ι} {items : List (Value ι)} :
      Member (.list label items) "length" (.int items.length)
  | item {label : ι} {items : List (Value ι)} {part : String} {n : Nat} {v : Value ι}
      (other : part ≠ "length") (numeral : (Numeral.spelled? part.toList).isSome = true)
      (position : Numeral.intPrefix? part.toList = .ok (some (n : Int))) (here : items[n]? = some v) :
      Member (.list label items) part v
  | characters {s : String} : Member (.text s) "length" (.int s.length)
  | character {s part : String} {n : Nat} {c : Char} (position : part = toString n)
      (few : part.toList.length ≤ digitLimit) (here : s.toList[n]? = some c) :
      Member (.text s) part (.text c.toString)

/-- Every part names a member of the value before it. -/
inductive Leads : Value ι → List String → Value ι → Prop where
  | done {v : Value ι} : Leads v [] v
  | step {v u w : Value ι} {part : String} {rest : List String} (names : Member v part u)
      (onward : Leads u rest w) : Leads v (part :: rest) w

/-- What comes of a path: the value it leads to, a missing value if only the last part names
nothing, or null if parts are left behind a value that is null or missing. -/
inductive ComesTo (context : Value ι) (parts : List String) : Value ι → Prop where
  | reached {w : Value ι} (leads : Leads context parts w) : ComesTo context parts w
  | missing {front : List String} {part : String} {v : Value ι} (last : parts = front ++ [part])
      (leads : Leads context front v) (solid : v.isNullish = false)
      (nameless : ∀ w, ¬Member v part w) : ComesTo context parts .missing
  | null {front rest : List String} {v : Value ι} (whole : parts = front ++ rest) (left : rest ≠ [])
      (leads : Leads context front v) (nullish : v.isNullish = true) : ComesTo context parts .null
  | broken {front rest : List String} {part : String} {v : Value ι}
      (whole : parts = front ++ part :: rest) (left : rest ≠ []) (leads : Leads context front v)
      (nameless : ∀ w, ¬Member v part w) : ComesTo context parts .null

/-- The part asks a value for a position that cannot be read: a text for one in digits of which some
have no decimal value, or which are too many, a list for one that begins with too many digits. -/
inductive Stuck : Value ι → String → Fault → Prop where
  | symbolic {s part : String}
      (digits : ∀ c ∈ part.toList, Text.isDecimal c = true ∨ Text.isSymbolicDigit c = true)
      (valueless : ∃ c ∈ part.toList, Text.isSymbolicDigit c = true) :
      Stuck (.text s) part .digitWithoutValue
  | longCharacter {s part : String}
      (digits : ∀ c ∈ part.toList, Text.isDecimal c = true ∧ Text.isSymbolicDigit c = false)
      (many : digitLimit < part.toList.length) : Stuck (.text s) part .tooManyDigits
  | longItem {label : ι} {items : List (Value ι)} {part : String}
      (numeral : (Numeral.spelled? part.toList).isSome = true)
      (many : Numeral.LongFront part.toList) : Stuck (.list label items) part .tooManyDigits

/-- A part that is reached asks for a position that cannot be read. -/
def Sticks (context : Value ι) (parts : List String) (f : Fault) : Prop :=
  ∃ front part rest v, parts = front ++ part :: rest ∧ Leads context front v ∧ Stuck v part f

section Character

variable {cs ds : List Char} {n : Nat}

theorem digit_of_toDigits {c : Char} (inside : c ∈ Nat.toDigits 10 n) :
    Text.isDecimal c = true ∧ Text.isSymbolicDigit c = false := by
  have all : Numeral.asciiDigits.all
      (fun c => Text.isDecimal c && !Text.isSymbolicDigit c) = true := by decide
  simpa using List.all_eq_true.mp all c (Numeral.mem_toDigits inside)

theorem natOfDigits_toDigits (n : Nat) :
    Numeral.natOfDigits 10 (Numeral.digitRun (Nat.toDigits 10 n)).1 = n := by
  rw [Numeral.digitRun_of_digits fun c inside => Numeral.mem_toDigits inside,
    Numeral.natOfDigits_of_digits, Nat.ofDigitChars_toDigits (by decide) (by decide)]

theorem characterAt_toDigits (short : (Nat.toDigits 10 n).length ≤ digitLimit) (cs : List Char) :
    characterAt cs (Nat.toDigits 10 n) =
      .ok ((cs[n]?.map fun c => (.text c.toString : Value ι)).getD .missing) := by
  have filled : (Nat.toDigits 10 n).isEmpty = false := by simp [Nat.toDigits_ne_nil]
  have decimal : (Nat.toDigits 10 n).all (fun c => Text.isDecimal c || Text.isSymbolicDigit c) = true :=
    List.all_eq_true.mpr fun c inside => by simp [(digit_of_toDigits inside).1]
  have valued : (Nat.toDigits 10 n).any Text.isSymbolicDigit = false :=
    List.any_eq_false.mpr fun c inside => by simp [(digit_of_toDigits inside).2]
  have few : ¬digitLimit < (Nat.toDigits 10 n).length := Nat.not_lt.mpr short
  simp only [characterAt, filled, decimal, valued, natOfDigits_toDigits, few]
  cases cs[n]? <;> rfl

theorem characterAt_of_other (other : ∀ n, ds ≠ Nat.toDigits 10 n)
    (symbolic : ¬((∀ c ∈ ds, Text.isDecimal c = true ∨ Text.isSymbolicDigit c = true) ∧
      ∃ c ∈ ds, Text.isSymbolicDigit c = true))
    (long : ¬((∀ c ∈ ds, Text.isDecimal c = true ∧ Text.isSymbolicDigit c = false) ∧
      digitLimit < ds.length)) :
    characterAt cs ds = .ok (.missing : Value ι) := by
  unfold characterAt
  split
  · rfl
  · rename_i digits
    simp only [Bool.or_eq_true, not_or, Bool.not_eq_true, Bool.not_eq_false', List.all_eq_true]
      at digits
    split
    · rename_i valueless
      exact absurd ⟨digits.2, List.any_eq_true.mp valueless⟩ symbolic
    · rename_i valued
      have each : ∀ c ∈ ds, Text.isDecimal c = true ∧ Text.isSymbolicDigit c = false := by
        intro c inside
        have plain := List.any_eq_false.mp (Bool.eq_false_iff.mpr valued) c inside
        exact ⟨(digits.2 c inside).resolve_right plain, Bool.eq_false_iff.mpr plain⟩
      have few : ¬digitLimit < ds.length := fun many => long ⟨each, many⟩
      simp [few, (other _).symm]

theorem characterAt_of_symbolic
    (digits : ∀ c ∈ ds, Text.isDecimal c = true ∨ Text.isSymbolicDigit c = true)
    (valueless : ∃ c ∈ ds, Text.isSymbolicDigit c = true) :
    (characterAt cs ds : Except Fault (Value ι)) = .error .digitWithoutValue := by
  have filled : ds.isEmpty = false := by
    obtain ⟨c, inside, -⟩ := valueless
    cases ds with
    | nil => cases inside
    | cons => rfl
  have all : ds.all (fun c => Text.isDecimal c || Text.isSymbolicDigit c) = true := by
    simpa using digits
  have any : ds.any Text.isSymbolicDigit = true := List.any_eq_true.mpr valueless
  simp [characterAt, filled, all, any]

theorem characterAt_of_long
    (digits : ∀ c ∈ ds, Text.isDecimal c = true ∧ Text.isSymbolicDigit c = false)
    (many : digitLimit < ds.length) :
    (characterAt cs ds : Except Fault (Value ι)) = .error .tooManyDigits := by
  have filled : ds.isEmpty = false := by
    cases ds with
    | nil => cases many
    | cons => rfl
  have all : ds.all (fun c => Text.isDecimal c || Text.isSymbolicDigit c) = true :=
    List.all_eq_true.mpr fun c inside => by simp [(digits c inside).1]
  have valued : ds.any Text.isSymbolicDigit = false :=
    List.any_eq_false.mpr fun c inside => by simp [(digits c inside).2]
  simp [characterAt, filled, all, valued, many]

end Character

section Item

variable {items : List (Value ι)}

theorem intPrefix?_of_blank {cs : List Char} (blank : Text.allBlank cs = true) :
    Numeral.intPrefix? cs = .ok none := by
  have nothing : cs.dropWhile Text.isBlank = [] :=
    List.dropWhile_eq_nil_iff.mpr (List.all_eq_true.mp blank)
  rw [Numeral.intPrefix?, nothing]
  rfl

/-- A part that spells a number asks for the item at the whole number in front. -/
theorem itemAt_of_spelled {cs : List Char} (numeral : (Numeral.spelled? cs).isSome = true) :
    itemAt items cs = (Numeral.intPrefix? cs).map fun
      | none => .missing
      | some i => if i < 0 then .missing else items[i.toNat]?.getD .missing := by
  have given : (Numeral.spelled? cs).isNone = false := by simp [numeral]
  rw [itemAt, Numeral.parse?]
  split
  · rename_i long
    rw [Numeral.intPrefix?_eq_error.mpr ⟨rfl, Numeral.longFront_of_tooLong long⟩]
    rfl
  · change (if (Numeral.spelled? cs).isNone && !Text.allBlank cs then _ else _) = _
    rw [given, Bool.false_and, if_neg Bool.false_ne_true]
    cases Numeral.intPrefix? cs with
    | error => rfl
    | ok r => cases r <;> rfl

theorem itemAt_of_unspelled {cs : List Char} (nothing : Numeral.spelled? cs = none) :
    itemAt items cs = .ok .missing := by
  rw [itemAt, Numeral.parse?_of_spelled?_none nothing]
  cases blank : Text.allBlank cs with
  | true =>
    rw [intPrefix?_of_blank blank]
    rfl
  | false => rfl

theorem itemAt_of_position {cs : List Char} {n : Nat} (numeral : (Numeral.spelled? cs).isSome = true)
    (position : Numeral.intPrefix? cs = .ok (some (n : Int))) :
    itemAt items cs = .ok (items[n]?.getD .missing) := by
  have nonneg : ¬(n : Int) < 0 := by omega
  rw [itemAt_of_spelled numeral, position]
  simp [Except.map, nonneg]

theorem itemAt_of_long {cs : List Char} (numeral : (Numeral.spelled? cs).isSome = true)
    (many : Numeral.LongFront cs) : itemAt items cs = .error .tooManyDigits := by
  rw [itemAt_of_spelled numeral, Numeral.intPrefix?_eq_error.mpr ⟨rfl, many⟩]
  rfl

theorem itemAt_of_other {cs : List Char} (other : ∀ n : Nat, (Numeral.spelled? cs).isSome = true →
      Numeral.intPrefix? cs = .ok (some (n : Int)) → items[n]? = none)
    (short : ¬((Numeral.spelled? cs).isSome = true ∧ Numeral.LongFront cs)) :
    itemAt items cs = .ok .missing := by
  by_cases numeral : (Numeral.spelled? cs).isSome = true
  · rw [itemAt_of_spelled numeral]
    cases position : Numeral.intPrefix? cs with
    | error => exact absurd ⟨numeral, (Numeral.intPrefix?_eq_error.mp position).2⟩ short
    | ok r =>
      cases r with
      | none => rfl
      | some i =>
        simp only [Except.map, Except.ok.injEq, ite_eq_left_iff]
        intro nonneg
        obtain ⟨n, rfl⟩ := Int.eq_ofNat_of_zero_le (Int.not_lt.mp nonneg)
        simp [other n numeral position]
  · exact itemAt_of_unspelled (Option.not_isSome_iff_eq_none.mp numeral)

end Item

theorem ne_length_of_digits
    (digits : ∀ c ∈ part.toList, Text.isDecimal c = true ∨ Text.isSymbolicDigit c = true) :
    part ≠ "length" := by
  rintro rfl
  have first := digits 'l' (by decide)
  revert first
  decide

theorem isNullish_of_names (names : Member v part w) : v.isNullish = false := by
  cases names <;> rfl

theorem member_of_names (names : Member v part w) : member v part = .ok w := by
  cases names with
  | entry here first =>
    simp [member, here, Entries.field?_append, Entries.field?_eq_none_iff.mpr first]
  | items => simp [member]
  | item other numeral position here =>
    simp [member, other, itemAt_of_position numeral position, here]
  | characters => simp [member]
  | character position few here =>
    rename_i s n c
    have digits : part.toList = Nat.toDigits 10 n := by rw [position]; exact Nat.toList_repr
    have other := ne_length_of_digits fun c inside =>
      .inl (digit_of_toDigits (n := n) (digits ▸ inside)).1
    rw [digits] at few
    simp [member, other, digits, characterAt_toDigits few, here]

theorem member_of_stuck {f : Fault} (stuck : Stuck v part f) : member v part = .error f := by
  cases stuck with
  | symbolic digits valueless =>
    have other := ne_length_of_digits digits
    simp [member, other, characterAt_of_symbolic digits valueless]
  | longCharacter digits many =>
    have other := ne_length_of_digits fun c inside => .inl (digits c inside).1
    simp [member, other, characterAt_of_long digits many]
  | longItem numeral many =>
    have other : part ≠ "length" := by
      rintro rfl
      revert numeral
      decide
    simp [member, other, itemAt_of_long numeral many]

/-- A part that is no position of a text and asks for none that cannot be read finds nothing in it. -/
theorem characterAt_of_nameless {s : String} (nameless : ∀ w : Value ι, ¬Member (.text s) part w)
    (smooth : ∀ f, ¬Stuck (.text s : Value ι) part f) :
    characterAt s.toList part.toList = .ok (.missing : Value ι) := by
  have short : ¬((∀ c ∈ part.toList, Text.isDecimal c = true ∧
      Text.isSymbolicDigit c = false) ∧ digitLimit < part.toList.length) :=
    fun ⟨digits, many⟩ => smooth _ (.longCharacter digits many)
  by_cases position : ∃ n, part.toList = Nat.toDigits 10 n
  · obtain ⟨n, digits⟩ := position
    have few : part.toList.length ≤ digitLimit := by
      by_contra many
      refine short ⟨fun c inside => digit_of_toDigits (n := n) ?_, Nat.not_le.mp many⟩
      rwa [← digits]
    have outside : s.toList[n]? = none := by
      by_contra present
      obtain ⟨c, found⟩ := Option.ne_none_iff_exists'.mp present
      refine nameless _ (.character ?_ few found)
      exact String.toList_inj.mp (digits.trans Nat.toList_repr.symm)
    rw [digits] at few ⊢
    rw [characterAt_toDigits few, outside]
    rfl
  · exact characterAt_of_other (not_exists.mp position)
      (fun ⟨digits, valueless⟩ => smooth _ (.symbolic digits valueless)) short

theorem member_of_nameless (nameless : ∀ w, ¬Member v part w) (smooth : ∀ f, ¬Stuck v part f) :
    member v part = .ok .missing := by
  cases v with
  | map label entries =>
    have absent : Entries.field? entries part = none := by
      by_contra present
      obtain ⟨u, found⟩ := Option.ne_none_iff_exists'.mp present
      obtain ⟨others, back, whole, first⟩ := Entries.exists_of_field? found
      exact nameless u (.entry whole (Entries.field?_eq_none_iff.mp first))
    simp [member, absent]
  | list label items =>
    have other : part ≠ "length" := by
      rintro rfl
      exact nameless _ .items
    have outside : itemAt items part.toList = .ok .missing := by
      refine itemAt_of_other (fun n numeral position => ?_) fun ⟨numeral, many⟩ =>
        smooth _ (.longItem numeral many)
      by_contra present
      obtain ⟨u, found⟩ := Option.ne_none_iff_exists'.mp present
      exact nameless u (.item other numeral position found)
    simp [member, other, outside]
  | atom s =>
    cases s with
    | text s =>
      have other : part ≠ "length" := by
        rintro rfl
        exact nameless _ .characters
      have plain := characterAt_of_nameless nameless smooth
      simp [member, other, plain]
    | _ => rfl

section Path

variable {f : Fault}

theorem leads_missing {parts : List String} (leads : Leads (.missing : Value ι) parts w) :
    parts = [] ∧ w = .missing := by
  cases leads with
  | done => exact ⟨rfl, rfl⟩
  | step names => cases names

theorem comesTo_nil : ComesTo v [] w ↔ w = v := by
  constructor
  · intro comes
    cases comes with
    | reached leads =>
      cases leads
      rfl
    | missing last | null last | broken last => simp_all
  · rintro rfl
    exact .reached .done

theorem comesTo_missing (left : rest ≠ []) : ComesTo (.missing : Value ι) rest w ↔ w = .null := by
  constructor
  · intro comes
    cases comes with
    | reached leads => exact absurd (leads_missing leads).1 left
    | missing last leads solid =>
      obtain ⟨-, rfl⟩ := leads_missing leads
      cases solid
    | null | broken => rfl
  · rintro rfl
    exact .null rfl left .done rfl

/-- What comes of a path after its first part. -/
theorem comesTo_cons : ComesTo v (part :: rest) w ↔ (v.isNullish = true ∧ w = .null) ∨
    (v.isNullish = false ∧ ((∃ u, Member v part u ∧ ComesTo u rest w) ∨
      (∀ u, ¬Member v part u) ∧ ComesTo .missing rest w)) := by
  constructor
  · intro comes
    cases comes with
    | reached leads =>
      cases leads with
      | step names onward =>
        exact .inr ⟨isNullish_of_names names, .inl ⟨_, names, .reached onward⟩⟩
    | missing last leads solid nameless =>
      cases leads with
      | done =>
        cases last
        exact .inr ⟨solid, .inr ⟨nameless, .reached .done⟩⟩
      | step names onward =>
        cases last
        exact .inr ⟨isNullish_of_names names, .inl ⟨_, names, .missing rfl onward solid nameless⟩⟩
    | null whole left leads nullish =>
      cases leads with
      | done => exact .inl ⟨nullish, rfl⟩
      | step names onward =>
        cases whole
        exact .inr ⟨isNullish_of_names names, .inl ⟨_, names, .null rfl left onward nullish⟩⟩
    | broken whole left leads nameless =>
      cases leads with
      | done =>
        cases whole
        cases nullish : v.isNullish with
        | true => exact .inl ⟨rfl, rfl⟩
        | false => exact .inr ⟨rfl, .inr ⟨nameless, (comesTo_missing left).mpr rfl⟩⟩
      | step names onward =>
        cases whole
        exact .inr ⟨isNullish_of_names names, .inl ⟨_, names, .broken rfl left onward nameless⟩⟩
  · rintro (⟨nullish, rfl⟩ | ⟨solid, ⟨u, names, comes⟩ | ⟨nameless, comes⟩⟩)
    · exact .null (List.nil_append _).symm (List.cons_ne_nil _ _) .done nullish
    · cases comes with
      | reached leads => exact .reached (.step names leads)
      | missing last leads solid nameless =>
        exact .missing (congrArg (part :: ·) last) (.step names leads) solid nameless
      | null whole left leads nullish =>
        exact .null (congrArg (part :: ·) whole) left (.step names leads) nullish
      | broken whole left leads nameless =>
        exact .broken (congrArg (part :: ·) whole) left (.step names leads) nameless
    · by_cases left : rest = []
      · subst left
        cases comesTo_nil.mp comes
        exact .missing (List.nil_append _).symm .done solid nameless
      · cases (comesTo_missing left).mp comes
        exact .broken (List.nil_append _).symm left .done nameless

theorem sticks_nil : ¬Sticks v [] f := by
  rintro ⟨front, part, rest, u, whole, -⟩
  cases front <;> cases whole

theorem sticks_missing {parts : List String} : ¬Sticks (.missing : Value ι) parts f := by
  rintro ⟨front, part, rest, u, -, leads, stuck⟩
  cases (leads_missing leads).2
  cases stuck

theorem sticks_cons : Sticks v (part :: rest) f ↔
    Stuck v part f ∨ ∃ u, Member v part u ∧ Sticks u rest f := by
  constructor
  · rintro ⟨front, stop, back, u, whole, leads, stuck⟩
    cases leads with
    | done =>
      cases whole
      exact .inl stuck
    | step names onward =>
      cases whole
      exact .inr ⟨_, names, _, stop, back, u, rfl, onward, stuck⟩
  · rintro (stuck | ⟨u, names, front, stop, back, x, rfl, leads, stuck⟩)
    · exact ⟨[], part, rest, v, rfl, .done, stuck⟩
    · exact ⟨part :: front, stop, back, x, rfl, .step names leads, stuck⟩

theorem nameless_of_nullish (nullish : v.isNullish = true) : ∀ u, ¬Member v part u := by
  intro u names
  cases (isNullish_of_names names).symm.trans nullish

theorem not_stuck_of_nullish (nullish : v.isNullish = true) : ¬Stuck v part f := by
  intro stuck
  cases stuck <;> cases nullish

theorem not_stuck_of_names (names : Member v part w) : ¬Stuck v part f := by
  intro stuck
  cases (member_of_names names).symm.trans (member_of_stuck stuck)

theorem member_unique {u : Value ι} (first : Member v part u) (second : Member v part w) : u = w :=
  Except.ok.inj ((member_of_names first).symm.trans (member_of_names second))

/-- A path that goes on from a value comes to this, whatever has been passed on the way. -/
def Settles (result : Except Fault (Value ι)) (v : Value ι) (parts : List String) : Prop :=
  (∀ w, result = .ok w ↔ ComesTo v parts w ∧ ∀ f, ¬Sticks v parts f) ∧
    ∀ f, result = .error f ↔ Sticks v parts f

theorem settles_nullish (nullish : v.isNullish = true) : Settles (.ok .null) v (part :: rest) := by
  have smooth : ∀ f, ¬Sticks v (part :: rest) f := by
    intro f sticks
    obtain stuck | ⟨u, names, -⟩ := sticks_cons.mp sticks
    · exact not_stuck_of_nullish nullish stuck
    · exact nameless_of_nullish nullish u names
  refine ⟨fun w => ?_, fun f => ⟨nofun, fun sticks => absurd sticks (smooth f)⟩⟩
  rw [comesTo_cons, and_iff_left smooth]
  simp [nullish, eq_comm]

theorem settles_stuck (stuck : Stuck v part f) : Settles (.error f) v (part :: rest) := by
  have sticks : Sticks v (part :: rest) f := sticks_cons.mpr (.inl stuck)
  refine ⟨fun w => ⟨nofun, fun smooth => absurd sticks (smooth.2 f)⟩, fun g => ?_⟩
  rw [Except.error.injEq]
  constructor
  · rintro rfl
    exact sticks
  · intro other
    obtain stuck' | ⟨u, names, -⟩ := sticks_cons.mp other
    · exact Except.error.inj ((member_of_stuck stuck).symm.trans (member_of_stuck stuck'))
    · exact absurd stuck (not_stuck_of_names names)

theorem Settles.of_names {result : Except Fault (Value ι)} {u : Value ι} (names : Member v part u)
    (settles : Settles result u rest) : Settles result v (part :: rest) := by
  have comes (w : Value ι) : ComesTo v (part :: rest) w ↔ ComesTo u rest w := by
    rw [comesTo_cons]
    constructor
    · rintro (⟨nullish, -⟩ | ⟨-, ⟨u', names', onward⟩ | ⟨nameless, -⟩⟩)
      · cases (isNullish_of_names names).symm.trans nullish
      · cases member_unique names names'
        exact onward
      · exact absurd names (nameless u)
    · intro onward
      exact .inr ⟨isNullish_of_names names, .inl ⟨u, names, onward⟩⟩
  have sticks (f : Fault) : Sticks v (part :: rest) f ↔ Sticks u rest f := by
    rw [sticks_cons, or_iff_right (not_stuck_of_names names)]
    constructor
    · rintro ⟨u', names', onward⟩
      cases member_unique names names'
      exact onward
    · intro onward
      exact ⟨u, names, onward⟩
  simpa only [Settles, comes, sticks] using settles

theorem Settles.of_nameless {result : Except Fault (Value ι)} (solid : v.isNullish = false)
    (nameless : ∀ u, ¬Member v part u) (smooth : ∀ f, ¬Stuck v part f)
    (settles : Settles result .missing rest) : Settles result v (part :: rest) := by
  have comes (w : Value ι) : ComesTo v (part :: rest) w ↔ ComesTo .missing rest w := by
    rw [comesTo_cons]
    simp [solid, nameless]
  have sticks (f : Fault) : Sticks v (part :: rest) f ↔ Sticks (.missing : Value ι) rest f := by
    rw [sticks_cons]
    simp [smooth, nameless, sticks_missing]
  simpa only [Settles, comes, sticks] using settles

theorem settles_follow (parts : List String) (v : Value ι) : Settles (follow parts v) v parts := by
  induction parts generalizing v with
  | nil =>
    refine ⟨fun w => ?_, fun f => ⟨nofun, fun sticks => absurd sticks sticks_nil⟩⟩
    rw [and_iff_left fun f => sticks_nil, comesTo_nil, follow, Except.ok.injEq, eq_comm]
  | cons part rest ih =>
    rw [follow]
    split
    · rename_i nullish
      exact settles_nullish nullish
    · rename_i solid
      rw [Bool.not_eq_true] at solid
      by_cases stuck : ∃ f, Stuck v part f
      · obtain ⟨f, stuck⟩ := stuck
        rw [member_of_stuck stuck]
        exact settles_stuck stuck
      · have smooth := not_exists.mp stuck
        by_cases named : ∃ u, Member v part u
        · obtain ⟨u, names⟩ := named
          rw [member_of_names names]
          exact (ih u).of_names names
        · have nameless := not_exists.mp named
          rw [member_of_nameless nameless smooth]
          exact (ih .missing).of_nameless solid nameless smooth

end Path

/-- A path fails exactly where a part that is reached asks for a position that cannot be read: in
digits of a text that have no decimal value or are too many, or at the front of a numeral for a list
in too many. Otherwise it comes to the value it leads to, to a missing value or to null. -/
theorem resolve_eq_iff (path : String) (context : Value ι) :
    (∀ w, resolve path context = .ok w ↔
      ComesTo context (Text.split "." path) w ∧ ∀ f, ¬Sticks context (Text.split "." path) f) ∧
    ∀ f, resolve path context = .error f ↔ Sticks context (Text.split "." path) f :=
  settles_follow (Text.split "." path) context

/-- A superscript is a digit that is no number, so it is no position in a text. -/
theorem resolve_superscript :
    let context : Data := .map () [(.text "a", .text "x")]
    ComesTo context ["a", "²"] .missing ∧ resolve "a.²" context = .error .digitWithoutValue := by
  intro context
  have failed : member (.text "x" : Data) "²" = .error .digitWithoutValue := by rfl
  have nameless : ∀ w, ¬Member (.text "x" : Data) "²" w := by
    intro w names
    cases (member_of_names names).symm.trans failed
  have entry : Member context "a" (.text "x") := .entry (List.nil_append _).symm nofun
  exact ⟨.missing rfl (.step entry .done) rfl nameless, by rfl⟩

end Walkthrough.Expression
