import Walkthrough.Proofs.Expression.Joining

/-! White space around a quoted separator. The argument of a stage is cut out of the text with the
white space around it, and the quotes are looked for at its ends; so with a blank at either end the
quotes are not seen, and the stage takes the comma that stands for no separator at all. -/
namespace Walkthrough.Expression

section Arguments

variable {front gap cs : List Char} {c : Char} {s : String}

theorem not_isQuote_of_isBlank (blank : Text.isBlank c = true) : isQuote c = false := by
  refine Bool.eq_false_iff.mpr fun marks => ?_
  simp only [isQuote, Bool.or_eq_true, beq_iff_eq] at marks
  rcases marks with rfl | rfl <;> cases blank

theorem unquoted?_eq_none_of_front (blank : Text.isBlank c = true) (cs : List Char) :
    unquoted? (c :: cs) = none := by
  cases cs with
  | nil => rfl
  | cons d ds => simp [unquoted?, not_isQuote_of_isBlank blank]

theorem unquoted?_eq_none_of_last (blank : Text.isBlank c = true) (last : cs.getLast? = some c) :
    unquoted? cs = none := by
  match cs with
  | [] | [_] => rfl
  | d :: e :: es =>
    rw [List.getLast?_cons_cons] at last
    have other : isQuote d = true → d ≠ c := by
      rintro marks rfl
      rw [not_isQuote_of_isBlank blank] at marks
      cases marks
    refine if_neg fun both => ?_
    rw [last] at both
    simp only [Bool.and_eq_true, beq_iff_eq, Option.some.injEq] at both
    exact other both.1 both.2.symm

theorem separator_around (before : Text.allBlank front = true) (after : Text.allBlank gap = true)
    (s : String) : separator (front ++ quoted s ++ gap) = if front ++ gap = [] then s else "," := by
  have blank {c : Char} {cs : List Char} (all : Text.allBlank cs = true) (inside : c ∈ cs) :
      Text.isBlank c = true := List.all_eq_true.mp all c inside
  cases front with
  | cons c cs =>
    rw [separator, List.cons_append, List.cons_append,
      unquoted?_eq_none_of_front (blank before List.mem_cons_self)]
    rfl
  | nil =>
    cases last : gap.getLast? with
    | none =>
      rw [List.getLast?_eq_none_iff.mp last]
      simp [separator, unquoted?_quoted]
    | some c =>
      have space := blank after (List.mem_of_getLast? last)
      have ends : ([] ++ quoted s ++ gap).getLast? = some c := by
        rw [List.getLast?_append, last]
        rfl
      have some : gap ≠ [] := by
        rintro rfl
        cases last
      rw [separator, unquoted?_eq_none_of_last space ends, if_neg (by simpa using some)]
      rfl

end Arguments

section Spacing

variable {sep front gap s : String} {context : Data}

/-- Dividing at a separator leaves a text whole just when the separator does not occur in it. At an
empty separator every character is a part. -/
theorem splitText_eq_singleton_iff :
    splitText sep s = [s] ↔ if sep = "" then s.length = 1 else ¬sep.toList <:+: s.toList := by
  split
  · rename_i none
    subst none
    change s.toList.map Char.toString = [s] ↔ _
    rw [← String.length_toList]
    constructor
    · intro alone
      simpa using congrArg List.length alone
    · intro one
      obtain ⟨c, text⟩ := List.length_eq_one_iff.mp one
      have same : s = c.toString := String.toList_inj.mp (text.trans (by simp))
      rw [text, same]
      rfl
  · rename_i some
    rw [splitText_of_some some, ← Text.partsOf_eq_singleton_iff (toList_ne_nil some)]
    constructor
    · intro alone
      have parts := congrArg (List.map String.toList) alone
      simpa [Function.comp_def] using parts
    · intro alone
      rw [alone]
      simp

theorem intercalate_eq_comma_iff {xs : List String} :
    sep.intercalate xs = ",".intercalate xs ↔ sep = "," ∨ xs.length ≤ 1 := by
  constructor
  · intro same
    rw [or_iff_not_imp_right, Nat.not_le]
    intro several
    rw [← String.toList_inj, String.toList_intercalate, String.toList_intercalate] at same
    exact String.toList_inj.mp (Text.intercalate_inj (by simpa using Nat.succ_le_of_lt several) same)
  · rintro (rfl | few)
    · rfl
    · match xs, few with
      | [], _ => rfl
      | [x], _ => rw [String.intercalate_singleton, String.intercalate_singleton]

/-- Two separators divide a text in the same way only if neither of them divides it at all. -/
theorem splitText_eq_comma_iff :
    splitText sep s = splitText "," s ↔ sep = "," ∨ splitText sep s = [s] ∧ splitText "," s = [s] := by
  constructor
  · intro same
    have joined : sep.intercalate (splitText sep s) = ",".intercalate (splitText sep s) := by
      rw [intercalate_splitText, same, intercalate_splitText]
    refine (intercalate_eq_comma_iff.mp joined).imp_right fun few => ?_
    have some : splitText "," s ≠ [] := by
      rw [splitText_of_some (by decide)]
      simpa using (Text.parted_partsOf (by decide) s.toList).ne_nil
    rw [← same] at some ⊢
    obtain ⟨part, alone⟩ := List.length_eq_one_iff.mp
      (Nat.le_antisymm few (List.length_pos_of_ne_nil some))
    have text := intercalate_splitText sep s
    rw [alone, String.intercalate_singleton] at text
    rw [alone, text]
    exact ⟨rfl, rfl⟩
  · rintro (rfl | ⟨whole, whole'⟩)
    · rfl
    · rw [whole, whole']

/-- The separator that a stage takes from quotes with white space around them. -/
def taken (sep front gap : String) : String := if front ++ gap = "" then sep else ","

theorem taken_eq_iff {f : String → Data} {P : Prop} (comma : f sep = f "," ↔ P) :
    f (taken sep front gap) = f sep ↔ front ++ gap = "" ∨ P := by
  rw [taken]
  split
  · rename_i none
    exact iff_of_true rfl (.inl none)
  · rename_i some
    rw [eq_comm, comma, or_iff_right some]

theorem reads_around (quotable : Quotable sep) (before : Text.allBlank front.toList = true)
    (after : Text.allBlank gap.toList = true) :
    ReadsStage ("join(" ++ front ++ "'" ++ sep ++ "'" ++ gap ++ ")").toList (.join (taken sep front gap)) ∧
      ReadsStage ("split(" ++ front ++ "'" ++ sep ++ "'" ++ gap ++ ")").toList
        (.split (taken sep front gap)) := by
  have used : separator (textBehind [⟨.string, front.toList, quoted sep⟩] ++ gap.toList) =
      taken sep front gap := by
    have behind : textBehind [⟨.string, front.toList, quoted sep⟩] = front.toList ++ quoted sep := by simp
    rw [behind, separator_around before after, taken]
    simp
  constructor
  · have reads := readsStage_quoted (by decide) (by decide) quotable before after
      (stageOf_join_spaced [⟨.string, front.toList, quoted sep⟩] gap.toList)
    rw [used] at reads
    simpa [quoted] using reads
  · have reads := readsStage_quoted (by decide) (by decide) quotable before after
      (stageOf_split_spaced [⟨.string, front.toList, quoted sep⟩] gap.toList)
    rw [used] at reads
    simpa [quoted] using reads

theorem joinedBy_eq_comma_iff {v : Data} :
    joinedBy sep v = joinedBy "," v ↔ sep = "," ∨ ∀ items texts, v = .ofList items →
      Value.displays items = .ok texts → items.length ≤ 1 := by
  cases v with
  | list label items =>
    cases written : Value.displays items with
    | error f =>
      refine iff_of_true (by rw [joinedBy, joinedBy, written]; rfl) (.inr fun other texts same shown => ?_)
      cases same
      cases written.symm.trans shown
    | ok texts =>
      have same_length : texts.length = items.length := by
        rw [Value.displays_eq_mapM] at written
        exact (mapM_eq_ok.mp written).length_eq.symm
      simp only [joinedBy, written, Except.map, lenient, Value.atom.injEq, Scalar.text.injEq,
        intercalate_eq_comma_iff, same_length]
      refine or_congr_right ⟨fun few other _ same _ => ?_, fun few => few items texts rfl written⟩
      cases same
      exact few
  | _ =>
    refine iff_of_true rfl (.inr fun items _ same _ => ?_)
    cases same

theorem splitText_comma_iff : splitText "," s = [s] ↔ ',' ∉ s.toList := by
  rw [splitText_eq_singleton_iff, if_neg (by decide)]
  exact not_congr (List.singleton_infix_iff ',' s.toList)

theorem dividedBy_eq_comma_iff {v : Data} :
    dividedBy sep v = dividedBy "," v ↔ sep = "," ∨ ∀ s, v = .text s →
      (if sep = "" then s.length = 1 else ¬sep.toList <:+: s.toList) ∧ ',' ∉ s.toList := by
  by_cases text : ∃ s, v = .text s
  · obtain ⟨s, rfl⟩ := text
    have injective : Function.Injective fun part => (.text part : Data) := by
      intro s t same
      cases same
      rfl
    simp only [dividedBy, Value.ofList, Value.list.injEq, true_and, List.map_inj_right injective,
      splitText_eq_comma_iff, splitText_comma_iff]
    rw [splitText_eq_singleton_iff]
    refine or_congr_right ⟨fun whole other same => ?_, fun whole => whole s rfl⟩
    cases same
    exact whole
  · have kept (sep : String) : dividedBy sep v = v := by
      unfold dividedBy
      split
      · exact absurd ⟨_, rfl⟩ text
      · rfl
    rw [kept, kept]
    exact iff_of_true rfl (.inr fun s same => absurd ⟨s, same⟩ text)

theorem evaluate_shapes_around (quotable : Quotable sep) (before : Text.allBlank front.toList = true)
    (after : Text.allBlank gap.toList = true) (context : Data) :
    evaluate (.text ("replies.x?join(" ++ front ++ "'" ++ sep ++ "'" ++ gap ++ ")")) context =
        joinedBy (taken sep front gap) (evaluate (.text "replies.x") context) ∧
      evaluate (.text ("replies.x?split(" ++ front ++ "'" ++ sep ++ "'" ++ gap ++ ")")) context =
        dividedBy (taken sep front gap) (evaluate (.text "replies.x") context) := by
  have path := reads_path (show IsWord "replies.x" by decide) (by decide) (by decide)
  obtain ⟨join, split⟩ := reads_around quotable before after
  exact ⟨evaluate_stage path join trivial (by simp) context,
    evaluate_stage path split trivial (by simp) context⟩

/-- White space around the quotes makes a stage forget its separator. Only a value that every
separator treats alike does not show it, as a list with an item that cannot be written. -/
theorem evaluate_around (quotable : Quotable sep) (before : Text.allBlank front.toList = true)
    (after : Text.allBlank gap.toList = true) (context : Data) :
    let S := fun text => evaluate (.text text) context
    let join := fun front gap => "replies.x?join(" ++ front ++ "'" ++ sep ++ "'" ++ gap ++ ")"
    let split := fun front gap => "replies.x?split(" ++ front ++ "'" ++ sep ++ "'" ++ gap ++ ")"
    let v := S "replies.x"
    S (join front gap) = joinedBy (taken sep front gap) v ∧
      S (split front gap) = dividedBy (taken sep front gap) v ∧
      (S (join front gap) = S (join "" "") ↔
        front ++ gap = "" ∨ sep = "," ∨ ∀ items texts, v = .ofList items →
          Value.displays items = .ok texts → items.length ≤ 1) ∧
      (S (split front gap) = S (split "" "") ↔
        front ++ gap = "" ∨ sep = "," ∨ ∀ s, v = .text s →
          (if sep = "" then s.length = 1 else ¬sep.toList <:+: s.toList) ∧ ',' ∉ s.toList) := by
  intro S join split v
  obtain ⟨joined, divided⟩ : S (join front gap) = joinedBy (taken sep front gap) v ∧
      S (split front gap) = dividedBy (taken sep front gap) v :=
    evaluate_shapes_around quotable before after context
  obtain ⟨close, close'⟩ : S (join "" "") = joinedBy sep v ∧ S (split "" "") = dividedBy sep v :=
    evaluate_shapes_around quotable rfl rfl context
  refine ⟨joined, divided, ?_, ?_⟩
  · rw [joined, close]
    exact taken_eq_iff (f := (joinedBy · v)) joinedBy_eq_comma_iff
  · rw [divided, close']
    exact taken_eq_iff (f := (dividedBy · v)) dividedBy_eq_comma_iff

theorem evaluate_around_tabs :
    let context : Data := .ofEntries [(.text "replies", .ofEntries [(.text "x", .text "a\t,b")])]
    let S := fun text => evaluate (.text text) context
    let join := fun front gap => "replies.x?join(" ++ front ++ "'" ++ "\t" ++ "'" ++ gap ++ ")"
    let split := fun front gap => "replies.x?split(" ++ front ++ "'" ++ "\t" ++ "'" ++ gap ++ ")"
    let v := S "replies.x"
    Quotable "\t" ∧ Text.allBlank "\n".toList = true ∧ Text.allBlank " ".toList = true ∧
      S (join "\n" " ") = joinedBy (taken "\t" "\n" " ") v ∧
      S (split "\n" " ") = dividedBy (taken "\t" "\n" " ") v ∧
      (S (join "\n" " ") = S (join "" "") ↔
        "\n" ++ " " = "" ∨ "\t" = "," ∨ ∀ items texts, v = .ofList items →
          Value.displays items = .ok texts → items.length ≤ 1) ∧
      (S (split "\n" " ") = S (split "" "") ↔
        "\n" ++ " " = "" ∨ "\t" = "," ∨ ∀ s, v = .text s →
          (if "\t" = "" then s.length = 1 else ¬"\t".toList <:+: s.toList) ∧ ',' ∉ s.toList) := by
  intro context S join split v
  have quotable : Quotable "\t" := by decide
  exact ⟨quotable, by decide, by decide, evaluate_around quotable (by decide) (by decide) context⟩

/-- A dash between quotes with a blank at either side joins by a comma. -/
theorem join_blank_dash :
    let context : Data :=
      .ofEntries [(.text "replies", .ofEntries [(.text "x", .ofList [.text "a", .text "b"])])]
    let S := fun text => evaluate (.text text) context
    Quotable "-" ∧ S "replies.x?join( '-' )" = .text "a,b" ∧ S "replies.x?join('-')" = .text "a-b" ∧
      S "replies.x?join( '-' )" ≠ S "replies.x?join('-')" := by
  intro context S
  have quotable : Quotable "-" := by decide
  have stored : evaluate (.text "replies.x") context = .ofList [.text "a", .text "b"] :=
    evaluate_replies (show IsWord "x" by decide) (by decide) rfl rfl rfl
  have spaced : S "replies.x?join( '-' )" = .text "a,b" := by
    obtain ⟨joined, -⟩ := evaluate_shapes_around quotable (show Text.allBlank " ".toList = true by decide)
      (show Text.allBlank " ".toList = true by decide) context
    rw [stored] at joined
    exact joined
  have close : S "replies.x?join('-')" = .text "a-b" := by
    obtain ⟨joined, -⟩ := evaluate_shapes_around quotable (show Text.allBlank "".toList = true by decide)
      (show Text.allBlank "".toList = true by decide) context
    rw [stored] at joined
    exact joined
  refine ⟨quotable, spaced, close, ?_⟩
  rw [spaced, close]
  simp

end Spacing

end Walkthrough.Expression
