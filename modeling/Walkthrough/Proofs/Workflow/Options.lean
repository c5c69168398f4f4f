import Walkthrough.Proofs.Attempt
import Walkthrough.Proofs.Expression.Lookup
import Walkthrough.Proofs.Json.Digits
import Walkthrough.Proofs.Json.Nesting
import Walkthrough.Proofs.Text.Parts
import Walkthrough.Workflow.Form

/-! Options that are given as a JSON array. The expression language reads such a text as well, but
all of it stands between one pair of brackets, so no operator shows and the text is a path; and of
that path the first part begins with a bracket, under which no context has anything. Numbers become
options that show them, which none of the numbers in JSON is too long for. -/
namespace Walkthrough

namespace Expression

variable {p : String} {cs : List Char} {es : Entries Unit}

theorem spelled?_of_bracket (cs : List Char) : Numeral.spelled? ('[' :: cs) = none := by
  obtain ⟨gap, whole, blank⟩ := Text.exists_trim ('[' :: cs)
  have solid : ('[' :: cs).dropWhile Text.isBlank = '[' :: cs := rfl
  rw [solid] at whole
  rw [Numeral.spelled?]
  cases trimmed : Text.trim ('[' :: cs) with
  | nil =>
    rw [trimmed, List.nil_append] at whole
    cases blank '[' (whole ▸ List.mem_cons_self)
  | cons c more =>
    rw [trimmed, List.cons_append] at whole
    obtain rfl : '[' = c := (List.cons.inj whole).1
    exact Numeral.body?_of_front (by decide) (by decide) more

/-- What a bracket begins is neither quoted nor a number nor a keyword. -/
theorem leaf_of_bracket (cs : List Char) : leaf ('[' :: cs) = .path (String.ofList ('[' :: cs)) := by
  have noNumber := Numeral.parse?_of_spelled?_none (spelled?_of_bracket cs)
  have unquoted : unquoted? ('[' :: cs) = none := by
    cases cs <;> rfl
  simp [leaf, unquoted, noNumber]

/-- Between brackets nothing shows, so the text is read as a whole. -/
theorem disjunction_of_list {closer : Kind} {ts : List Token} {gap : List Char}
    (nested : Nested ts) (closing : closer.isCloser = true) :
    disjunction (sign .leftBracket [] :: ts ++ [sign closer gap]) =
      leaf (raw (sign .leftBracket [] :: ts ++ [sign closer gap])) := by
  have holds : Holds 8 (sign .leftBracket [] :: ts ++ [sign closer gap]) :=
    holds_enclose rfl closing nested
  have ungrouped : Ungrouped (sign .leftBracket [] :: ts ++ [sign closer gap]) := ⟨rfl, rfl⟩
  have plus := holds.undivided (k := .plus) (by decide)
  refine (holds.readAt_eq (Nat.zero_le 8)).trans ?_
  refine operand_of_leaf ungrouped (List.cons_ne_nil _ _) (by rw [plus]) ?_ ?_ ?_
  · rintro u ⟨⟩
    decide
  · intro u last
    rw [List.getLast?_concat] at last
    cases last
    rintro ⟨⟩
    cases closing
  · rw [segments_of_hidden (holds.hidden (by decide)) (holds.hidden (by decide))]

theorem parse_of_climbs {inner gap : List Char} {c : Char} (climbs : Climbs 0 inner 0)
    (bracket : c = ']' ∨ c = '\x7d') (blank : Text.allBlank gap = true)
    (text : p.toList = '[' :: (inner ++ c :: gap)) :
    ∃ cs, parse p = .ok (.path (String.ofList ('[' :: cs))) := by
  obtain ⟨⟨ts, tail⟩, read, nested⟩ := climbs.lex 0
  obtain ⟨covers, legible, after⟩ := legible_of_lex read
  dsimp only at nested covers legible after
  obtain ⟨closer, closing, written⟩ : ∃ closer : Kind, closer.isCloser = true ∧ closer.sign = [c] := by
    rcases bracket with rfl | rfl
    · exact ⟨.rightBracket, rfl, rfl⟩
    · exact ⟨.rightBrace, rfl, rfl⟩
  have tokens : tokenize p.toList =
      .ok ⟨sign .leftBracket [] :: ts ++ [sign closer tail], gap⟩ := by
    refine tokenize_eq_ok_iff.mpr ⟨?_, legible.between rfl closing rfl after gap, blank⟩
    have opens : Kind.leftBracket.sign = ['['] := rfl
    rw [text, covers]
    simp [textBehind_append, written, opens]
  refine ⟨textBehind (ts ++ [sign closer tail]), ?_⟩
  have tree : whole (sign .leftBracket [] :: ts ++ [sign closer tail]) =
      .path (String.ofList ('[' :: textBehind (ts ++ [sign closer tail]))) :=
    (whole_eq (List.cons_ne_nil _ _)).trans
      ((disjunction_of_list nested closing).trans (leaf_of_bracket _))
  rw [parse, tokens]
  exact (congrArg Expr.checked tree).trans (Expr.checked_of_readable rfl)

theorem exists_split_of_bracket (cs : List Char) : ∃ part rest,
    Text.split "." (String.ofList ('[' :: cs)) = part :: rest ∧ part.toList.head? = some '[' := by
  have other : ¬['.'] <+: '[' :: cs := fun front => by cases (List.cons_prefix_cons.mp front).1
  rw [Text.split, String.toList_ofList, String.toList_ofList, Text.partsOf_cons other]
  cases Text.partsOf ['.'] cs with
  | nil => exact ⟨_, _, rfl, by simp⟩
  | cons part rest => exact ⟨_, _, rfl, by simp⟩

/-- The first part of a path that begins with a bracket finds nothing. -/
theorem value_of_bracket (apart : ∀ key v, (.text key, v) ∈ es → key.toList.head? ≠ some '[')
    (cs : List Char) : (Expr.path (String.ofList ('[' :: cs))).value (.ofEntries es) = .ok .null := by
  obtain ⟨part, rest, parts, front⟩ := exists_split_of_bracket cs
  have absent : Entries.field? es part = none := by
    refine Entries.field?_eq_none_iff.mpr fun (key, v) inside same => ?_
    obtain rfl : key = .text part := same
    exact apart part v inside front
  have first : member (.ofEntries es) part = .ok (.missing : Data) := by
    simp [member, Value.ofEntries, absent]
  rw [value_path, resolve, parts, follow, first]
  cases rest <;> rfl

theorem evaluate_of_read? {v : Data} (reads : Json.read? p = some v)
    (front : p.toList.head? = some '[') (unescaped : '\\' ∉ p.toList)
    (apart : ∀ key v, (.text key, v) ∈ es → key.toList.head? ≠ some '[') :
    evaluate (.text p) (.ofEntries es) = .null := by
  obtain ⟨inner, closer, gap, text, climbs, bracket, space⟩ :=
    Json.exists_of_read? reads front unescaped
  have blank : Text.allBlank gap = true := by
    refine List.all_eq_true.mpr fun c inside => Json.blank_of_isSpace (space c inside)
  obtain ⟨cs, parsed⟩ := parse_of_climbs climbs bracket blank text
  have solid : Text.allBlank p.toList = false := by
    rw [text]
    rfl
  rw [evaluate, evaluateText_ofEntries, evaluateStrict, solid, parsed]
  simp only [Bool.false_eq_true, ↓reduceIte, value_of_bracket apart]
  rfl

end Expression

theorem exists_option {v : Data} (short : ∀ s ∈ v.scalars, ¬s.Overlong) :
    ∃ option, normalizeOption v = .ok option := by
  cases v with
  | atom s =>
    cases s with
    | number n =>
      have digits : n.digits ≤ digitLimit := Nat.not_lt.mp (short _ List.mem_cons_self)
      have text : (Value.number n : Data).string = .ok n.plainText :=
        Number.written_eq_ok.mpr ⟨digits, rfl⟩
      exact ⟨_, congrArg (Functor.map _) text⟩
    | _ => exact ⟨_, rfl⟩
  | list | map => exact ⟨_, rfl⟩

theorem exists_options {items : List Data} (short : ∀ v ∈ items, ∀ s ∈ v.scalars, ¬s.Overlong) :
    ∃ options, normalizeOptions items = .ok options := by
  cases normal : normalizeOptions items with
  | ok options => exact ⟨options, rfl⟩
  | error f =>
    obtain ⟨v, inside, f, fails⟩ := exists_mapM_eq_error.mp ⟨f, normal⟩
    obtain ⟨option, read⟩ := exists_option (short v inside)
    cases read.symm.trans fails

/-- A list in JSON without escapes makes the options, and the expression that it also is comes to
nothing. -/
theorem options_of_array (f : Field) (t : String) (items : List Data) (es : Entries Unit)
    (given : f.attributes.options = .text t) (unlabelled : f.attributes.label.isVoid = true)
    (front : t.toList.head? = some '[') (unescaped : '\\' ∉ t.toList)
    (reads : Json.read? t = some (.ofList items))
    (apart : ∀ key v, (.text key, v) ∈ es → key.toList.head? ≠ some '[') :
    Expression.evaluate (.text t) (.ofEntries es) = .null ∧ ∃ options,
      normalizeOptions items = .ok options ∧ f.options (.ofEntries es) = .ok options := by
  have null := Expression.evaluate_of_read? reads front unescaped apart
  have short : ∀ v ∈ items, ∀ s ∈ v.scalars, ¬s.Overlong := fun v inside s told =>
    Json.not_overlong_of_read? reads (Value.mem_itemScalars.mpr ⟨v, inside, told⟩)
  obtain ⟨options, normal⟩ := exists_options short
  refine ⟨null, options, normal, ?_⟩
  have filled : (Value.text t : Data).isVoid = false := by
    obtain ⟨cs, text⟩ := List.head?_eq_some_iff.mp front
    rw [Value.isVoid, ← Bool.not_eq_true, String.isEmpty_iff]
    rintro rfl
    cases text
  have unnamed : labelKey? f.attributes.label = none := by
    cases label : f.attributes.label with
    | list | map => rfl
    | atom s =>
      cases s with
      | text s =>
        rw [label, Value.isVoid, String.isEmpty_iff] at unlabelled
        rw [unlabelled]
        rfl
      | _ => rfl
  have found : optionItems (.text t) (.ofEntries es) = .ok items := by
    simp only [optionItems, null, front, Json.read_eq_some.mpr reads, Value.ofList, beq_self_eq_true,
      ↓reduceIte]
    rfl
  simp only [Field.options, given, filled, unnamed, Bool.false_eq_true, ↓reduceIte]
  refine bind_eq_ok.mpr ⟨items, found, ?_⟩
  exact bind_eq_ok.mpr ⟨options, normal, rfl⟩

theorem options_of_array_quoting :
    let t := "[ \"a == 'b\", [1e+3, \x7b\"$\x7bx\x7d || ]\": null\x7d] ]\n"
    let inner : Data := .ofEntries [(.text "$\x7bx\x7d || ]", .null)]
    let items : List Data := [.text "a == 'b", .ofList [.double (.ofDecimal false 1 3), inner]]
    let f : Field := ⟨"choice", "multiple_choice", ⟨false, .text t, .null, .null, .null, []⟩⟩
    let es : Entries Unit := [(.text "x", .ofList [.text "y"])]
    Json.read? t = some (.ofList items) ∧ Expression.evaluate (.text t) (.ofEntries es) = .null ∧
      ∃ options, normalizeOptions items = .ok options ∧ f.options (.ofEntries es) = .ok options := by
  refine ⟨rfl, options_of_array _ _ _ _ rfl rfl (by decide) (by decide) rfl ?_⟩
  intro key v inside
  cases List.mem_singleton.mp inside
  decide

end Walkthrough
