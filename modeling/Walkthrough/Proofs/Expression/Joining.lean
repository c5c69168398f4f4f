import Walkthrough.Proofs.Expression.Literal
import Walkthrough.Proofs.Expression.Lookup
import Walkthrough.Proofs.Expression.Mapping
import Walkthrough.Proofs.Text.Separation

/-! Joining a list to a text and dividing a text into a list. Both stages look at nothing but the
value they are given, so a chain of them is a composition of functions on the value of its base. With
one separator they undo each other, unless a part of the list could be taken for more than one. -/
namespace Walkthrough.Expression

section Separators

variable {sep s : String} {xs : List String}

theorem toList_ne_nil (some : sep ≠ "") : sep.toList ≠ [] := by simpa using some

theorem splitText_of_some (some : sep ≠ "") (s : String) :
    splitText sep s = (Text.partsOf sep.toList s.toList).map String.ofList := by
  rw [splitText, if_neg (by simpa using some), Text.split]

/-- Joining undoes dividing at any separator, also at none. -/
theorem intercalate_splitText (sep s : String) : sep.intercalate (splitText sep s) = s := by
  rw [← String.toList_inj, String.toList_intercalate]
  by_cases none : sep = ""
  · subst none
    change List.intercalate [] (List.map String.toList (s.toList.map Char.toString)) = _
    cases s.toList with
    | nil => rfl
    | cons c cs => simp [intercalate_cons, List.flatMap_map]
  · rw [splitText_of_some none, List.map_map]
    simp [Function.comp_def, Text.intercalate_partsOf (toList_ne_nil none)]

/-- Dividing undoes joining if no part holds a character of the separator. -/
theorem splitText_intercalate (some : sep ≠ "") (filled : xs ≠ [])
    (apart : ∀ x ∈ xs, ∀ c ∈ x.toList, c ∉ sep.toList) : splitText sep (sep.intercalate xs) = xs := by
  have several : xs.map String.toList ≠ [] := by simpa using filled
  have parts := Text.partsOf_intercalate (toList_ne_nil some) several (List.forall_mem_map.mpr apart)
  rw [splitText_of_some some, String.toList_intercalate, parts, List.map_map]
  simp [Function.comp_def]

end Separators

/-- The value, null where there is none. -/
def lenient {ε : Type} : Except ε Data → Data
  | .ok v => v
  | .error _ => .null

/-- What joining makes of a value: null of a list with an item that cannot be written. -/
def joinedBy (sep : String) : Data → Data
  | .list _ items => lenient ((Value.displays items).map fun texts => .text (sep.intercalate texts))
  | v => v

/-- What dividing makes of a value. -/
def dividedBy (sep : String) : Data → Data
  | .text s => .ofList ((splitText sep s).map fun part => .text part)
  | v => v

theorem displays_texts (xs : List String) :
    Value.displays (xs.map fun x => (.text x : Data)) = .ok xs := by
  induction xs with
  | nil => rfl
  | cons x xs ih =>
    rw [List.map_cons, Value.displays, ih]
    rfl

theorem joinedBy_texts (sep : String) (xs : List String) :
    joinedBy sep (.ofList (xs.map fun x => .text x)) = .text (sep.intercalate xs) := by
  rw [Value.ofList, joinedBy, displays_texts]
  rfl

@[simp] theorem dividedBy_text (sep s : String) :
    dividedBy sep (.text s) = .ofList ((splitText sep s).map fun part => .text part) := rfl

/-- What a stage makes of a value, for those that join or divide. -/
def Stage.shape : Stage → Data → Data
  | .join sep => joinedBy sep
  | .split sep => dividedBy sep
  | _ => id

def Stage.Separates : Stage → Prop
  | .join _ | .split _ => True
  | _ => False

section Chains

variable {stages : List Stage} {stage : Stage}

theorem settled_list (label : Nat) (items : List Result) :
    settled (.list label items) = .ofList (items.map Value.erase) := by
  simp only [settled, Value.normalize, Value.erase, Value.ofList]
  rw [Value.eraseItems_eq_relabelItems, Value.relabelItems_eq_map]
  simp [Value.erase_eq_relabel]

theorem foldl_shape_null (stages : List Stage) :
    stages.foldl (fun v s => s.shape v) .null = .null := by
  induction stages with
  | nil => rfl
  | cons stage rest ih =>
    have null : stage.shape .null = .null := by cases stage <;> rfl
    rw [List.foldl_cons, null, ih]

theorem apply_shapes (separates : stage.Separates) (v context : Result) (n : Nat) :
    lenient (((stage.apply v context).run n).map fun p => settled p.1) = stage.shape (settled v) := by
  cases stage with
  | join sep =>
    cases v with
    | list label items =>
      have same : Value.displays (items.map Value.erase) = Value.displays items := by
        rw [Value.displays_eq_mapM, Value.displays_eq_mapM, List.mapM_map]
        simp [Function.comp_def, Value.erase_eq_relabel]
      rw [settled_list, Stage.shape, Value.ofList, joinedBy, same, Stage.apply]
      cases Value.displays items <;> rfl
    | atom s => cases s <;> rfl
    | map label entries => rfl
  | split sep =>
    cases v with
    | atom s =>
      cases s with
      | text s =>
        change settled (.list n ((splitText sep s).map fun part => .text part)) = _
        rw [settled_list, List.map_map]
        rfl
      | _ => rfl
    | list label items => rfl
    | map label entries => rfl
  | _ => exact separates.elim

/-- A stage that fails leaves null, and the stages behind it leave it so. -/
theorem applyAll_shapes (separate : ∀ s ∈ stages, s.Separates) (v context : Result) (n : Nat) :
    lenient (((applyAll stages v context).run n).map fun p => settled p.1) =
      stages.foldl (fun v s => s.shape v) (settled v) := by
  induction stages generalizing v n with
  | nil => rfl
  | cons stage rest ih =>
    obtain ⟨first, later⟩ := List.forall_mem_cons.mp separate
    have shaped := apply_shapes first v context n
    rw [applyAll, StateT.run_bind, List.foldl_cons, ← shaped]
    cases (stage.apply v context).run n with
    | error => exact (foldl_shape_null rest).symm
    | ok p => exact ih later p.1 p.2

/-- A base that fails is null, and the stages go on from there. -/
theorem value_chain (separate : ∀ s ∈ stages, s.Separates) (base : Expr) (context : Data) :
    lenient ((Expr.chain base stages).value context) =
      stages.foldl (fun v s => s.shape v) (lenient (base.value context)) := by
  obtain ⟨v, ran, same⟩ := exists_absorb base (context.labelled 0).1 (context.labelled 0).2
  have here : settled v = lenient (base.value context) := by
    rw [settled, same, erase_settle_labelled]
    cases base.value context <;> rfl
  rw [← here, ← applyAll_shapes separate v (context.labelled 0).1
    (base.settle (context.labelled 0).1 (context.labelled 0).2).2, Expr.value_eq, Expr.eval,
    StateT.run_bind, ran]
  rfl

theorem stagesReadable_of_separate (separate : ∀ s ∈ stages, s.Separates) :
    stagesReadable stages = true := by
  rw [stagesReadable_eq_all, List.all_eq_true]
  intro stage listed
  cases stage <;> first | rfl | exact (separate _ listed).elim

theorem outcome_chain (separate : ∀ s ∈ stages, s.Separates) (base : Expr) (context : Data) :
    lenient ((Expr.chain base stages).outcome context) =
      stages.foldl (fun v s => s.shape v) (lenient (base.outcome context)) := by
  rw [Expr.outcome, Expr.outcome, Expr.readable, stagesReadable_of_separate separate, Bool.and_true]
  split
  · exact value_chain separate base context
  · exact (foldl_shape_null stages).symm

end Chains

section Texts

variable {stages : List Stage} {text : String} {e : Expr} {f : Stage → List Char}

theorem Reads.evaluate_eq {n : Nat} (reads : Reads n text.toList e) (context : Data) :
    evaluate (.text text) context =
      lenient (e.outcome (if context.isVoid then .emptyMap else context)) := by
  rw [evaluate, evaluateText, reads.evaluateStrict_eq]
  cases e.outcome (if context.isVoid then .emptyMap else context) <;> rfl

/-- A text with stages behind it has the value of the text, taken through the stages. -/
theorem evaluate_chain (base : Reads 8 text.toList e) (some : stages ≠ [])
    (reads : ∀ s ∈ stages, ReadsStage (f s) s) (separate : ∀ s ∈ stages, s.Separates)
    (context : Data) :
    evaluate (.text (String.ofList (text.toList ++ stages.flatMap fun s => '?' :: f s))) context =
      stages.foldl (fun v s => s.shape v) (evaluate (.text text) context) := by
  have whole := Reads.chain some base reads
  rw [← String.toList_ofList (l := text.toList ++ _)] at whole
  rw [whole.evaluate_eq, base.evaluate_eq, List.map_id', outcome_chain separate]

theorem evaluate_stage {whole : String} {cs : List Char} {stage : Stage} (base : Reads 8 text.toList e)
    (reads : ReadsStage cs stage) (separates : stage.Separates)
    (written : whole.toList = text.toList ++ '?' :: cs) (context : Data) :
    evaluate (.text whole) context = stage.shape (evaluate (.text text) context) := by
  have value := evaluate_chain base (List.cons_ne_nil stage []) (f := fun _ => cs) (by simpa using reads)
    (by simpa using separates) context
  simp only [List.flatMap_cons, List.flatMap_nil, List.append_nil] at value
  rwa [← written, String.ofList_toList] at value

theorem reads_path (word : IsWord text) (noNumber : Numeral.parse? text.toList = .ok none)
    (noKeyword : text ∉ ["true", "false", "null"]) : Reads 8 text.toList (.path text) :=
  .leaf word (leaf_of_path word noNumber noKeyword)

theorem evaluate_replies {entries inner : Entries Unit} {name : String} {v : Data} (word : IsWord name)
    (plain : '.' ∉ name.toList) (whole : v.normalize = v)
    (there : entries.field? "replies" = some (.ofEntries inner)) (stored : inner.field? name = some v) :
    evaluate (.text (dotted "replies" name)) (.ofEntries entries) = v := by
  rw [evaluate_dotted leading_replies word plain there, stored]
  exact whole

end Texts

section Inverses

variable {sep : String} {entries inner : Entries Unit}

/-- A stored text is what its parts are joined to, at any separator that can be quoted. A stored list
is what the text that it is joined to is divided into, if the separator is not empty, there is an item
and no item holds a character of the separator. -/
theorem join_split_inverse (quotable : Quotable sep)
    (there : entries.field? "replies" = some (.ofEntries inner)) :
    let S := fun text => evaluate (.text text) (.ofEntries entries)
    (∀ s, inner.field? "s" = some (.text s) →
      S ("replies.s?split('" ++ sep ++ "')?join('" ++ sep ++ "')") = .text s) ∧
    (sep ≠ "" → ∀ xs, xs ≠ [] → (∀ x ∈ xs, ∀ c ∈ x.toList, c ∉ sep.toList) →
      inner.field? "xs" = some (.ofList (xs.map fun x => .text x)) →
      S ("replies.xs?join('" ++ sep ++ "')?split('" ++ sep ++ "')") =
        .ofList (xs.map fun x => .text x)) := by
  intro S
  have reads {stage : Stage} (separates : stage = .join sep ∨ stage = .split sep) :
      ReadsStage stage.print.toList stage ∧ stage.Separates := by
    rcases separates with rfl | rfl <;> exact ⟨reads_stage quotable nofun, trivial⟩
  have chain {p whole : String} (path : Reads 8 p.toList (.path p)) {first second : Stage}
      (one : first = .join sep ∨ first = .split sep) (two : second = .join sep ∨ second = .split sep)
      (text : whole.toList = p.toList ++ [first, second].flatMap fun s => '?' :: s.print.toList) :
      S whole = second.shape (first.shape (S p)) := by
    have each : ∀ s ∈ [first, second], ReadsStage s.print.toList s ∧ s.Separates := by
      simpa using ⟨reads one, reads two⟩
    have value := evaluate_chain path (List.cons_ne_nil _ _) (fun s inside => (each s inside).1)
      (fun s inside => (each s inside).2) (.ofEntries entries)
    rwa [← text, String.ofList_toList] at value
  have base {name : String} {v : Data} (word : IsWord name) (plain : '.' ∉ name.toList)
      (whole : v.normalize = v) (found : inner.field? name = some v) :
      S (dotted "replies" name) = v := evaluate_replies word plain whole there found
  constructor
  · intro s found
    have path := reads_path (show IsWord "replies.s" by decide) (by decide) (by decide)
    have here : S "replies.s" = .text s :=
      base (show IsWord "s" by decide) (by decide) rfl found
    rw [chain path (.inr rfl) (.inl rfl) (by simp), here, Stage.shape, Stage.shape, dividedBy_text,
      joinedBy_texts, intercalate_splitText]
  · intro some xs filled apart found
    have path := reads_path (show IsWord "replies.xs" by decide) (by decide) (by decide)
    have here : S "replies.xs" = .ofList (xs.map fun x => .text x) :=
      base (show IsWord "xs" by decide) (by decide) rfl found
    rw [chain path (.inl rfl) (.inr rfl) (by simp), here, Stage.shape, Stage.shape, joinedBy_texts,
      dividedBy_text, splitText_intercalate some filled apart]

theorem join_split_inverse_arrows :
    let sep := "?) -> ,["
    let inner : Entries Unit :=
      [(.text "s", .text "?) -> ,[?) -> ,[ ->"), (.text "xs", .ofList [.text "", .text "a", .text ""])]
    let entries : Entries Unit := [(.text "replies", .ofEntries inner)]
    let S := fun text => evaluate (.text text) (.ofEntries entries)
    Quotable sep ∧ entries.field? "replies" = some (.ofEntries inner) ∧
      S ("replies.s?split('" ++ sep ++ "')?join('" ++ sep ++ "')") =
        .text "?) -> ,[?) -> ,[ ->" ∧
      S ("replies.xs?join('" ++ sep ++ "')?split('" ++ sep ++ "')") =
        .ofList (["", "a", ""].map fun x => .text x) := by
  intro sep inner entries S
  have quotable : Quotable sep := by decide
  have there : entries.field? "replies" = some (.ofEntries inner) := rfl
  have apart : ∀ x ∈ ["", "a", ""], ∀ c ∈ x.toList, c ∉ sep.toList := by simp [sep]
  obtain ⟨joined, divided⟩ := join_split_inverse quotable there
  exact ⟨quotable, there, joined _ rfl, divided (by decide) _ (by decide) apart rfl⟩

end Inverses

end Walkthrough.Expression
