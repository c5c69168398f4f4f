import Walkthrough.Proofs.Expression.Grouping
import Walkthrough.Proofs.Expression.Printing
import Walkthrough.Proofs.Expression.Renaming
import Walkthrough.Proofs.Value.Blocks

/-! The names on which a value depends. An expression reads its context under the first parts of
its paths and nowhere else, and a mapping takes its variable out of those of its body. Contexts that
hold the same under these names give the same value, down to the labels if they hold the same
containers. -/
namespace Walkthrough.Expression

open Value

/-- The part of a path before its first dot. -/
def root (path : String) : String := String.ofList (path.toList.takeWhile (· != '.'))

mutual

/-- The names that a tree looks up in its context. -/
def Expr.roots : Expr → List String
  | .literal _ | .unread _ => []
  | .path p => [root p]
  | .either first rest => first.roots ++ rootsAll rest
  | .both first rest => first.roots ++ rootsAll rest
  | .choose condition yes no => condition.roots ++ yes.roots ++ no.roots
  | .compare _ left right => left.roots ++ right.roots
  | .not e => e.roots
  | .exist p => [root p]
  | .concat parts => rootsAll parts
  | .object properties => rootsOfProperties properties
  | .chain base stages => base.roots ++ rootsOfStages stages

def rootsAll : List Expr → List String
  | [] => []
  | e :: rest => e.roots ++ rootsAll rest

def rootsOfProperties : List (String × Expr) → List String
  | [] => []
  | (_, e) :: rest => e.roots ++ rootsOfProperties rest

def rootsOfStages : List Stage → List String
  | [] => []
  | stage :: rest => stage.roots ++ rootsOfStages rest

def Stage.roots : Stage → List String
  | .map item body => body.roots.filter (· != item)
  | _ => []

end

theorem exists_partsOf (d : Char) (cs : List Char) :
    ∃ rest, Text.partsOf [d] cs = cs.takeWhile (· != d) :: rest := by
  induction cs with
  | nil => exact ⟨[], rfl⟩
  | cons c cs ih =>
    obtain ⟨rest, parts⟩ := ih
    rw [Text.partsOf] at parts ⊢
    by_cases same : c = d
    · subst same
      exact ⟨Text.partsAfter [c] 0 cs, by simp [Text.partsAfter]⟩
    · exact ⟨rest, by simp [Text.partsAfter, Ne.symm same, same, parts, Text.growFirst]⟩

theorem split_path (p : String) : ∃ rest, Text.split "." p = root p :: rest := by
  obtain ⟨rest, parts⟩ := exists_partsOf '.' p.toList
  have point : ".".toList = ['.'] := rfl
  exact ⟨rest.map String.ofList, by rw [Text.split, point, parts, List.map_cons, root]⟩

theorem resolve_congr {ι : Type} {p : String} {label label' : ι} {es es' : Entries ι}
    (agree : es.field? (root p) = es'.field? (root p)) :
    resolve p (.map label es) = resolve p (.map label' es') := by
  obtain ⟨rest, split⟩ := split_path p
  rw [resolve, resolve, split, follow, follow, member, member, agree]
  rfl

section Labelled

variable {label label' : Nat}

theorem withItem_map (item : String) (v : Result) (label : Nat) (es : Entries Nat) :
    withItem item v (.map label es) = pure (.map label (es.insert (.text item) v)) := rfl

theorem agree_append {first second : List String} {es es' : Entries Nat}
    (agree : ∀ r ∈ first ++ second, es.field? r = es'.field? r) :
    (∀ r ∈ first, es.field? r = es'.field? r) ∧ ∀ r ∈ second, es.field? r = es'.field? r :=
  List.forall_mem_append.mp agree

mutual

theorem Expr.eval_congr (e : Expr) {es es' : Entries Nat}
    (agree : ∀ r ∈ e.roots, es.field? r = es'.field? r) :
    e.eval (.map label es) = e.eval (.map label' es') := by
  match e with
  | .literal _ | .unread _ => rfl
  | .path p =>
    rw [Expr.eval, Expr.eval, resolve_congr (agree _ (List.mem_singleton_self _))]
  | .exist p =>
    rw [Expr.eval, Expr.eval, resolve_congr (agree _ (List.mem_singleton_self _))]
  | .either first rest =>
    obtain ⟨here, later⟩ := agree_append agree
    rw [Expr.eval, Expr.eval, first.eval_congr here, evalAll_congr rest later]
  | .both first rest =>
    obtain ⟨here, later⟩ := agree_append agree
    rw [Expr.eval, Expr.eval, first.eval_congr here, evalAll_congr rest later]
  | .choose condition yes no =>
    obtain ⟨front, last⟩ := agree_append agree
    obtain ⟨here, later⟩ := agree_append front
    rw [Expr.eval, Expr.eval, condition.eval_congr here, yes.eval_congr later, no.eval_congr last]
  | .compare comparison left right =>
    obtain ⟨here, later⟩ := agree_append agree
    rw [Expr.eval, Expr.eval, left.eval_congr here, right.eval_congr later]
  | .not e => rw [Expr.eval, Expr.eval, e.eval_congr agree]
  | .concat parts => rw [Expr.eval, Expr.eval, evalTexts_congr parts agree]
  | .object properties => rw [Expr.eval, Expr.eval, evalProperties_congr properties agree]
  | .chain base stages =>
    obtain ⟨here, later⟩ := agree_append agree
    simp only [Expr.eval, base.eval_congr here, applyAll_congr stages later]

theorem evalAll_congr (parts : List Expr) {es es' : Entries Nat}
    (agree : ∀ r ∈ rootsAll parts, es.field? r = es'.field? r) :
    evalAll parts (.map label es) = evalAll parts (.map label' es') := by
  match parts with
  | [] => rfl
  | e :: rest =>
    obtain ⟨here, later⟩ := agree_append agree
    rw [evalAll, evalAll, e.eval_congr here, evalAll_congr rest later]

theorem evalTexts_congr (parts : List Expr) {es es' : Entries Nat}
    (agree : ∀ r ∈ rootsAll parts, es.field? r = es'.field? r) :
    evalTexts parts (.map label es) = evalTexts parts (.map label' es') := by
  match parts with
  | [] => rfl
  | e :: rest =>
    obtain ⟨here, later⟩ := agree_append agree
    rw [evalTexts, evalTexts, e.eval_congr here, evalTexts_congr rest later]

theorem evalProperties_congr (properties : List (String × Expr)) {es es' : Entries Nat}
    (agree : ∀ r ∈ rootsOfProperties properties, es.field? r = es'.field? r) :
    evalProperties properties (.map label es) = evalProperties properties (.map label' es') := by
  match properties with
  | [] => rfl
  | (name, e) :: rest =>
    obtain ⟨here, later⟩ := agree_append agree
    rw [evalProperties, evalProperties, e.eval_congr here, evalProperties_congr rest later]

theorem applyAll_congr (stages : List Stage) {es es' : Entries Nat}
    (agree : ∀ r ∈ rootsOfStages stages, es.field? r = es'.field? r) (v : Result) :
    applyAll stages v (.map label es) = applyAll stages v (.map label' es') := by
  match stages with
  | [] => rfl
  | stage :: rest =>
    obtain ⟨here, later⟩ := agree_append agree
    simp only [applyAll, stage.apply_congr here, applyAll_congr rest later]

theorem Stage.apply_congr (stage : Stage) {es es' : Entries Nat}
    (agree : ∀ r ∈ stage.roots, es.field? r = es'.field? r) (v : Result) :
    stage.apply v (.map label es) = stage.apply v (.map label' es') := by
  match stage with
  | .map item body =>
    -- inside the body the variable stands for the same in both contexts
    have inner (w : Result) : body.eval (.map label (es.insert (.text item) w)) =
        body.eval (.map label' (es'.insert (.text item) w)) := by
      refine body.eval_congr fun r inside => ?_
      rw [Entries.field?_insert, Entries.field?_insert]
      split
      · rfl
      · rename_i other
        have apart : r ≠ item := fun same => other (congrArg Scalar.text same.symm)
        exact agree r (List.mem_filter.mpr ⟨inside, bne_iff_ne.mpr apart⟩)
    cases v with
    | list own items =>
      simp only [Stage.apply, withItem_map, pure_bind, inner]
    | atom | map => rfl
  | .string | .size | .hasContent | .unknown raw => rfl
  | .join separator | .split separator =>
    cases v with
    | atom s => cases s <;> rfl
    | list | map => rfl

end

end Labelled

section Data

variable {e : Expr} {front back es es' : Entries Unit}

theorem Expr.value_of_alike {context context' : Data} {shift : Nat} {ρ : Nat → Nat}
    (shifts : Shifts (context.labelled 0).2 shift ρ)
    (same : e.eval ((context.labelled 0).1.relabel ρ) = e.eval (context'.labelled 0).1)
    (room : (context'.labelled 0).2 ≤ (context.labelled 0).2 + shift) :
    e.value context = e.value context' := by
  have ran := (e.eval_moves shifts (context.labelled 0).1).run _ (Nat.le_refl _)
  rw [← (e.eval_yields context').run _ room, ← same, ran, Expr.value_eq]
  cases (e.eval (context.labelled 0).1).run (context.labelled 0).2 with
  | error => rfl
  | ok p => exact congrArg Except.ok (settled_relabel ρ p.1).symm

/-- Entries behind others are not read if the names are found before them or not at all. -/
theorem Expr.value_append
    (absent : ∀ r ∈ e.roots, front.field? r = none → back.field? r = none) :
    e.value (.ofEntries (front ++ back)) = e.value (.ofEntries front) := by
  have whole : labelledEntries 1 (front ++ back) = _ := labelledEntries_append 1 front back
  have shifts : Shifts (labelled 0 (Value.ofEntries (front ++ back))).2 0 id :=
    ⟨Function.injective_id, fun _ _ => rfl⟩
  refine Expr.value_of_alike shifts ?_ ?_
  · have same : (labelled 0 (Value.ofEntries (front ++ back))).1.relabel id =
        (labelled 0 (Value.ofEntries (front ++ back))).1 := relabel_labelled _ fun _ _ => rfl
    refine (congrArg e.eval same).trans ?_
    change e.eval (.map 0 (labelledEntries 1 (front ++ back)).1) =
      e.eval (.map 0 (labelledEntries 1 front).1)
    refine e.eval_congr fun r inside => ?_
    rw [whole, Entries.field?_append]
    cases there : Entries.field? (labelledEntries 1 front).1 r with
    | some v => rfl
    | none =>
      have none := absent r inside (field?_labelledEntries_eq_none_iff.mp there)
      rw [Option.none_or, field?_labelledEntries_eq_none_iff.mpr none]
  · change (labelledEntries 1 front).2 ≤ (labelledEntries 1 (front ++ back)).2
    rw [whole]
    exact le_labelledEntries _ back

theorem Expr.value_exchange {others : Entries Unit} {name : String} {v : Data}
    (absent : others.field? name = none) :
    e.value (.ofEntries (front ++ (others ++ (.text name, v) :: back))) =
      e.value (.ofEntries (front ++ (.text name, v) :: (others ++ back))) := by
  obtain ⟨ρ, injective, kept, length, same⟩ := exists_exchange 1 front others back v absent
  have shifts : Shifts (labelled 0 (Value.ofEntries (front ++ (others ++ (.text name, v) :: back)))).2
      0 ρ := ⟨injective, kept⟩
  exact Expr.value_of_alike shifts (e.eval_congr fun r _ => same r)
    (Nat.le_of_eq length)

/-- The entries that are read can be brought to the front one by one, in the same order on both
sides. -/
theorem Expr.value_gather (names : List String)
    (agree : ∀ r ∈ e.roots, front.field? r = none → es.field? r = es'.field? r)
    (cover : ∀ r ∈ e.roots, front.field? r = none → r ∈ names ∨ es.field? r = none) :
    e.value (.ofEntries (front ++ es)) = e.value (.ofEntries (front ++ es')) := by
  induction names generalizing front es es' with
  | nil =>
    have absent : ∀ r ∈ e.roots, front.field? r = none → es.field? r = none :=
      fun r inside new => (cover r inside new).resolve_left List.not_mem_nil
    rw [Expr.value_append absent, Expr.value_append fun r inside new =>
      (agree r inside new).symm.trans (absent r inside new)]
  | cons name names ih =>
    by_cases open' : name ∈ e.roots ∧ front.field? name = none ∧ ∃ v, es.field? name = some v
    · obtain ⟨root, new, v, found⟩ := open'
      have found' : es'.field? name = some v := (agree name root new).symm.trans found
      obtain ⟨others, back, rfl, absent⟩ := Entries.exists_of_field? found
      obtain ⟨others', back', rfl, absent'⟩ := Entries.exists_of_field? found'
      rw [Expr.value_exchange absent, Expr.value_exchange absent']
      have front_eq (tail : Entries Unit) : front ++ (.text name, v) :: tail =
          (front ++ [(.text name, v)]) ++ tail := by simp
      rw [front_eq (others ++ back), front_eq (others' ++ back')]
      refine ih (fun r inside none => ?_) fun r inside none => ?_
      · obtain ⟨new, other⟩ := Entries.field?_concat_eq_none_iff.mp none
        rw [← Entries.field?_without other, agree r inside new, Entries.field?_without other]
      · obtain ⟨new, other⟩ := Entries.field?_concat_eq_none_iff.mp none
        rw [← Entries.field?_without other]
        exact (cover r inside new).imp_left fun listed =>
          (List.mem_cons.mp listed).resolve_left (Ne.symm other)
    · refine ih agree fun r inside new => ?_
      rcases cover r inside new with listed | none
      · rcases List.mem_cons.mp listed with rfl | later
        · refine .inr (Option.eq_none_iff_forall_ne_some.mpr fun v found => ?_)
          exact open' ⟨inside, new, v, found⟩
        · exact .inl later
      · exact .inr none

theorem Expr.value_congr (agree : ∀ r ∈ e.roots, es.field? r = es'.field? r) :
    e.value (.ofEntries es) = e.value (.ofEntries es') := by
  have gathered : e.value (.ofEntries ([] ++ es)) = e.value (.ofEntries ([] ++ es')) :=
    Expr.value_gather e.roots (fun r inside _ => agree r inside) fun _ inside _ => .inl inside
  exact gathered

/-- A mapping does not read its context under its own variable, unless its base does. -/
theorem Expr.value_map_insert {base body : Expr} {item : String} (v : Data)
    (apart : item ∉ base.roots) :
    (Expr.chain base [.map item body]).value (.ofEntries (es.insert (.text item) v)) =
      (Expr.chain base [.map item body]).value (.ofEntries es) := by
  refine Expr.value_congr fun r inside => ?_
  have other : r ≠ item := by
    simp only [Expr.roots, rootsOfStages, Stage.roots, List.append_nil, List.mem_append,
      List.mem_filter, bne_iff_ne] at inside
    rcases inside with here | ⟨-, other⟩
    · exact fun same => apart (same ▸ here)
    · exact other
  rw [Entries.field?_insert, if_neg (by simpa using other.symm)]

/-- The names that a text looks up; a text that is no expression looks up none. -/
def rootsOf (text : String) : List String :=
  match parse text with
  | .ok e => e.roots
  | .error _ => []

theorem evaluateStrict_congr {text : String}
    (agree : ∀ r ∈ rootsOf text, es.field? r = es'.field? r) :
    evaluateStrict text (.ofEntries es) = evaluateStrict text (.ofEntries es') := by
  rw [evaluateStrict, evaluateStrict]
  cases parsed : parse text with
  | error e => cases e <;> rfl
  | ok e =>
    rw [rootsOf, parsed] at agree
    simp only [Expr.value_congr agree]

/-- Contexts that agree under the names that a text looks up give it the same value, or let it fail
in the same way. So it is with conditions, and where containers are told apart: then the whole
computation is the same. The variable of a mapping is none of these names on account of the body,
whatever the context holds under it. -/
theorem evaluate_congr {text : String} (agree : ∀ r ∈ rootsOf text, es.field? r = es'.field? r) :
    evaluateStrict text (.ofEntries es) = evaluateStrict text (.ofEntries es') ∧
    condition (.text text) (.ofEntries es) = condition (.text text) (.ofEntries es') ∧
    (∀ e, parse text = .ok e → ∀ (label label' : Nat) (ls ls' : Entries Nat),
      (∀ r ∈ rootsOf text, ls.field? r = ls'.field? r) →
        e.eval (.map label ls) = e.eval (.map label' ls')) ∧
    ∀ base item body v, item ∉ base.roots →
      (Expr.chain base [.map item body]).value (.ofEntries (es.insert (.text item) v)) =
        (Expr.chain base [.map item body]).value (.ofEntries es) := by
  have strict := evaluateStrict_congr agree
  refine ⟨strict, ?_, fun e parsed label label' ls ls' alike => ?_, fun _ _ _ v apart =>
    Expr.value_map_insert v apart⟩
  · rw [condition, condition, evaluate, evaluate, evaluateText_ofEntries, evaluateText_ofEntries,
      strict]
  · rw [rootsOf, parsed] at alike
    exact e.eval_congr alike

theorem evaluate_congr_shadowed :
    let text := "rows?map(row -> row.unit == unit)"
    let rows := Value.ofList [.ofEntries [(.text "unit", .text "m")], .null]
    let es : Entries Unit := [(.text "row", .ofList []), (.text "rows", rows), (.text "unit", .text "m")]
    let es' : Entries Unit := [(.text "unit", .text "m"), (.text "more", rows), (.text "rows", rows)]
    (∀ r ∈ rootsOf text, es.field? r = es'.field? r) ∧
    evaluateStrict text (.ofEntries es) = evaluateStrict text (.ofEntries es') ∧
    condition (.text text) (.ofEntries es) = condition (.text text) (.ofEntries es') ∧
    (∀ e, parse text = .ok e → ∀ (label label' : Nat) (ls ls' : Entries Nat),
      (∀ r ∈ rootsOf text, ls.field? r = ls'.field? r) →
        e.eval (.map label ls) = e.eval (.map label' ls')) ∧
    ∀ base item body v, item ∉ base.roots →
      (Expr.chain base [.map item body]).value (.ofEntries (es.insert (.text item) v)) =
        (Expr.chain base [.map item body]).value (.ofEntries es) := by
  intro text rows es es'
  have path (p : String) (word : IsWord p) (plain : Numeral.parse? p.toList = .ok none ∧
      p ∉ ["true", "false", "null"]) : Printable (.path p) := .path word plain.1 plain.2
  have body : Printable (.compare .equal (.path "row.unit") (.path "unit")) :=
    .compare _ (path "row.unit" (by decide) (by decide)) (path "unit" (by decide) (by decide))
  have tree : Printable (.chain (.path "rows")
      [.map "row" (.compare .equal (.path "row.unit") (.path "unit"))]) :=
    .chain (List.cons_ne_nil _ _) (path "rows" (by decide) (by decide))
      (List.forall_mem_singleton.mpr (by simp [Stage.Printable]; decide)) (by simpa using body)
  have parsed : parse text = .ok _ := tree.reads.parse_eq (by decide)
  have roots : rootsOf text = ["rows", "unit"] := by
    rw [rootsOf, parsed]
    decide
  have agree : ∀ r ∈ rootsOf text, es.field? r = es'.field? r := by
    rw [roots]
    simp [es, es']
  exact ⟨agree, evaluate_congr agree⟩

end Data

end Walkthrough.Expression
