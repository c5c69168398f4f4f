import Walkthrough.Expression.Template
import Walkthrough.Proofs.Expression.Renaming
import Walkthrough.Proofs.Value.Contents

/-! What an evaluation makes. Out of scalars that are allowed it makes containers of such scalars,
under labels below the next free one. The one scalar that may be forbidden all the same is the
missing value: wherever a value is stored or handed out, it becomes null. -/
namespace Walkthrough.Expression

open Value

/-- From a label on, what the computation comes to satisfies a predicate at the next free label,
which never falls. -/
def Gives {α : Type} (n : Nat) (x : Eval α) (P : Nat → α → Prop) : Prop :=
  ∀ k a m, n ≤ k → x.run k = .ok (a, m) → k ≤ m ∧ P m a

namespace Gives

variable {α β : Type} {n : Nat} {P : Nat → α → Prop} {Q : Nat → β → Prop}

theorem pure {a : α} (holds : ∀ m, n ≤ m → P m a) : Gives n (pure a) P := by
  rintro k _ _ le ⟨⟩
  exact ⟨Nat.le_refl k, holds k le⟩

theorem bind {x : Eval α} {next : α → Eval β} (first : Gives n x P)
    (rest : ∀ a m, n ≤ m → P m a → Gives m (next a) Q) : Gives n (x >>= next) Q := by
  intro k b m le ran
  rw [StateT.run_bind] at ran
  obtain ⟨⟨a, j⟩, ran', ran⟩ := bind_eq_ok.mp ran
  obtain ⟨le', holds⟩ := first k a j le ran'
  obtain ⟨le'', holds⟩ := rest a j (Nat.le_trans le le') holds j b m (Nat.le_refl j) ran
  exact ⟨Nat.le_trans le' le'', holds⟩

theorem lift {r : Except Fault α} (holds : ∀ a, r = .ok a → ∀ m, n ≤ m → P m a) :
    Gives n (liftM r) P := by
  intro k a m le ran
  cases r with
  | error => cases ran
  | ok =>
    cases ran
    exact ⟨Nat.le_refl k, holds a rfl k le⟩

theorem any (r : Except Fault α) : Gives n (liftM r) fun _ _ => True :=
  lift fun _ _ _ _ => trivial

theorem fresh : Gives n fresh fun m label => label < m := by
  rintro k _ _ le ⟨⟩
  exact ⟨Nat.le_succ k, Nat.lt_succ_self k⟩

theorem absorb {x : Eval Result} {P : Nat → Result → Prop} (gives : Gives n x P)
    (null : ∀ m, P m .null) : Gives n (absorb x) P := by
  intro k a m le ran
  simp only [Expression.absorb, StateT.run] at ran
  split at ran
  · rename_i kept
    cases ran
    exact gives k _ _ le kept
  · cases ran
    exact ⟨Nat.le_refl k, null k⟩

/-- What holds of each result goes on to hold while the others are computed. -/
theorem mapM {k : α → Eval β} {items : List α} (kept : ∀ b j m, j ≤ m → Q j b → Q m b)
    (each : ∀ a ∈ items, ∀ m, n ≤ m → Gives m (k a) Q) :
    Gives n (items.mapM k) fun m bs => ∀ b ∈ bs, Q m b := by
  induction items generalizing n with
  | nil => exact .pure fun _ _ => nofun
  | cons a rest ih =>
    rw [List.forall_mem_cons] at each
    rw [List.mapM_cons]
    refine (each.1 n (Nat.le_refl n)).bind fun b j le here => ?_
    refine (ih fun a inside m le' => each.2 a inside m (Nat.le_trans le le')).bind
      fun bs m _ later => ?_
    exact .pure fun i le' => List.forall_mem_cons.mpr
      ⟨kept b j i (by omega) here, fun c inside => kept c m i le' (later c inside)⟩

end Gives

/-- Once it is settled, the value consists of allowed scalars and of containers labelled so far. -/
def Made (p : Scalar → Prop) (m : Nat) (v : Result) : Prop := v.normalize.Every p (· < m)

section Evaluation

variable {p : Scalar → Prop} {n m : Nat}

theorem Made.mono {v : Result} (le : n ≤ m) (made : Made p n v) : Made p m v :=
  Every.mono (fun _ below => Nat.lt_of_lt_of_le below le) made

theorem every_mono {v : Result} (le : n ≤ m) (holds : v.Every p (· < n)) : v.Every p (· < m) :=
  holds.mono fun _ below => Nat.lt_of_lt_of_le below le

theorem gives_newList {items : List Result} (all : ∀ v ∈ items, v.Every p (· < n)) :
    Gives n (newList items) (Made p) :=
  Gives.fresh.bind fun _ _ le below => .pure fun _ le' =>
    .list (Nat.lt_of_lt_of_le below le') fun v inside =>
      every_mono (Nat.le_trans le le') (all v inside)

theorem gives_newMap {entries : Entries Nat} (all : ∀ entry ∈ entries, entry.2.Every p (· < n)) :
    Gives n (newMap entries) (Made p) :=
  Gives.fresh.bind fun _ _ le below => .pure fun _ le' =>
    .map (Nat.lt_of_lt_of_le below le') fun entry inside =>
      every_mono (Nat.le_trans le le') (all entry inside)

theorem gives_firstTrue {v : Result} {rest : List Result} (made : Made p n v)
    (all : ∀ w ∈ rest, Made p n w) : Gives n (firstTrue v rest) (Made p) := by
  induction rest generalizing v n with
  | nil => exact .pure fun _ le => made.mono le
  | cons next rest ih =>
    rw [List.forall_mem_cons] at all
    refine (Gives.any v.truth).bind fun b m le _ => ?_
    have later : ∀ w ∈ rest, Made p m w := fun w inside => (all.2 w inside).mono le
    cases b with
    | true => exact ih (made.mono le) later
    | false => exact ih (all.1.mono le) later

theorem gives_firstFalse {v : Result} {rest : List Result} (made : Made p n v)
    (all : ∀ w ∈ rest, Made p n w) : Gives n (firstFalse v rest) (Made p) := by
  induction rest generalizing v n with
  | nil => exact .pure fun _ le => made.mono le
  | cons next rest ih =>
    rw [List.forall_mem_cons] at all
    refine (Gives.any v.truth).bind fun b m le _ => ?_
    have later : ∀ w ∈ rest, Made p m w := fun w inside => (all.2 w inside).mono le
    cases b with
    | true => exact ih (all.1.mono le) later
    | false => exact ih (made.mono le) later

theorem gives_withItem {item : String} {v context : Result} (inner : v.Every p (· < n))
    (made : Made p n context) : Gives n (withItem item v context) (Made p) := by
  cases context with
  | map label entries =>
    obtain ⟨own, all⟩ := every_map_iff.mp made
    exact .pure fun _ le => .map (Nat.lt_of_lt_of_le own le)
      (Entries.forall_insert (fun entry inside => every_mono le (all entry inside))
        (every_mono le inner))
  | atom | list => exact .lift nofun

theorem made_atom (plain : ∀ s, s ≠ .missing → p s) {s : Scalar} : Made p n (.atom s) :=
  every_normalize_atom plain s

mutual

theorem Expr.eval_gives (plain : ∀ s, s ≠ .missing → p s) {n : Nat} (e : Expr) {context : Result}
    (made : Made p n context) : Gives n (e.eval context) (Made p) := by
  match e with
  | .literal s => exact .pure fun _ _ => made_atom plain
  | .unread _ => exact .lift (r := .error .tooManyDigits) nofun
  | .path path => exact .lift fun v found m le => resolve_every plain (made.mono le) found
  | .either first rest =>
    refine (first.eval_gives plain made).bind fun v m le here => ?_
    refine (evalAll_gives plain rest (made.mono le)).bind fun vs j le' all => ?_
    exact gives_firstTrue (here.mono le') all
  | .both first rest =>
    refine (first.eval_gives plain made).bind fun v m le here => ?_
    refine (evalAll_gives plain rest (made.mono le)).bind fun vs j le' all => ?_
    exact gives_firstFalse (here.mono le') all
  | .choose condition yes no =>
    refine (condition.eval_gives plain made).bind fun v m le _ => ?_
    refine (Gives.any v.truth).bind fun b j le' _ => ?_
    cases b with
    | true => exact yes.eval_gives plain (made.mono (Nat.le_trans le le'))
    | false => exact no.eval_gives plain (made.mono (Nat.le_trans le le'))
  | .compare comparison left right =>
    refine (left.eval_gives plain made).bind fun a m le _ => ?_
    refine (right.eval_gives plain (made.mono le)).bind fun b j _ _ => ?_
    refine Gives.bind (P := fun _ _ => True) ?_ fun _ _ _ _ => .pure fun _ _ => made_atom plain
    cases comparison with
    | equal => exact .any (a.looseEquals sameLabel b)
    | unequal =>
      exact (Gives.any (a.looseEquals sameLabel b)).bind fun _ _ _ _ => .pure fun _ _ => trivial
    | relation r => exact .any (a.compare r b)
  | .not e =>
    refine (e.eval_gives plain made).bind fun v m _ _ => ?_
    exact (Gives.any v.truth).bind fun _ _ _ _ => .pure fun _ _ => made_atom plain
  | .exist path =>
    exact (Gives.any (resolve path context)).bind fun _ _ _ _ => .pure fun _ _ => made_atom plain
  | .concat parts =>
    exact (evalTexts_gives plain parts made).bind fun _ _ _ _ => .pure fun _ _ => made_atom plain
  | .object properties =>
    refine (evalProperties_gives plain properties made).bind fun entries m _ all => ?_
    exact gives_newMap (Entries.forall_ofList all)
  | .chain base stages =>
    refine ((base.eval_gives plain made).absorb fun _ => made_atom plain).bind fun v m le here => ?_
    exact applyAll_gives plain stages here (made.mono le)

theorem evalAll_gives (plain : ∀ s, s ≠ .missing → p s) {n : Nat} (es : List Expr)
    {context : Result} (made : Made p n context) :
    Gives n (evalAll es context) fun m vs => ∀ v ∈ vs, Made p m v := by
  match es with
  | [] => exact .pure fun _ _ => nofun
  | e :: rest =>
    refine (e.eval_gives plain made).bind fun v m le here => ?_
    refine (evalAll_gives plain rest (made.mono le)).bind fun vs j le' later => ?_
    exact .pure fun i le'' => List.forall_mem_cons.mpr
      ⟨here.mono (Nat.le_trans le' le''), fun w inside => (later w inside).mono le''⟩

theorem evalTexts_gives (plain : ∀ s, s ≠ .missing → p s) {n : Nat} (es : List Expr)
    {context : Result} (made : Made p n context) : Gives n (evalTexts es context) fun _ _ => True := by
  match es with
  | [] => exact .pure fun _ _ => trivial
  | e :: rest =>
    refine (e.eval_gives plain made).bind fun v m le _ => ?_
    refine (Gives.any v.display).bind fun _ j le' _ => ?_
    refine (evalTexts_gives plain rest (made.mono (Nat.le_trans le le'))).bind fun _ _ _ _ => ?_
    exact .pure fun _ _ => trivial

theorem evalProperties_gives (plain : ∀ s, s ≠ .missing → p s) {n : Nat}
    (properties : List (String × Expr)) {context : Result} (made : Made p n context) :
    Gives n (evalProperties properties context)
      fun m entries => ∀ entry ∈ entries, entry.2.Every p (· < m) := by
  match properties with
  | [] => exact .pure fun _ _ => nofun
  | (name, e) :: rest =>
    refine ((e.eval_gives plain made).absorb fun _ => made_atom plain).bind fun v m le here => ?_
    refine (evalProperties_gives plain rest (made.mono le)).bind fun entries j le' later => ?_
    exact .pure fun i le'' => List.forall_mem_cons.mpr
      ⟨here.mono (Nat.le_trans le' le''), fun entry inside => every_mono le'' (later entry inside)⟩

theorem applyAll_gives (plain : ∀ s, s ≠ .missing → p s) {n : Nat} (stages : List Stage)
    {v context : Result} (here : Made p n v) (made : Made p n context) :
    Gives n (applyAll stages v context) (Made p) := by
  match stages with
  | [] => exact .pure fun _ le => here.mono le
  | stage :: rest =>
    exact (stage.apply_gives plain here made).bind fun w m le after =>
      applyAll_gives plain rest after (made.mono le)

theorem Stage.apply_gives (plain : ∀ s, s ≠ .missing → p s) {n : Nat} (stage : Stage)
    {v context : Result} (here : Made p n v) (made : Made p n context) :
    Gives n (stage.apply v context) (Made p) := by
  match stage with
  | .string =>
    refine (Gives.any v.truth).bind fun b _ _ _ => ?_
    cases b with
    | true => exact (Gives.any v.string).bind fun _ _ _ _ => .pure fun _ _ => made_atom plain
    | false => exact .pure fun _ _ => made_atom plain
  | .size => exact .pure fun _ _ => made_atom plain
  | .hasContent => exact .pure fun _ _ => made_atom plain
  | .join separator =>
    cases v with
    | list _ items =>
      exact (Gives.any (displays items)).bind fun _ _ _ _ => .pure fun _ _ => made_atom plain
    | atom | map => exact .pure fun _ le => here.mono le
  | .split separator =>
    cases v with
    | list | map => exact .pure fun _ le => here.mono le
    | atom s =>
      cases s with
      | text s =>
        refine gives_newList fun w inside => ?_
        obtain ⟨part, -, rfl⟩ := List.mem_map.mp inside
        exact .atom (plain _ nofun)
      | _ => exact .pure fun _ le => here.mono le
  | .map item body =>
    cases v with
    | atom | map => exact .pure fun _ le => here.mono le
    | list label items =>
      obtain ⟨-, all⟩ := every_list_iff.mp here
      refine Gives.bind (Gives.mapM (Q := fun m v => v.Every p (· < m))
        (fun _ _ _ => every_mono) fun w inside m le => ?_)
        fun mapped _ _ whole => gives_newList whole
      refine (gives_withItem (every_mono le (all w inside)) (made.mono le)).bind
        fun inner _ _ within => ?_
      refine ((body.eval_gives plain within).absorb fun _ => made_atom plain).bind fun u _ _ made => ?_
      exact .pure fun _ le => every_mono le made
  | .unknown raw => exact .pure fun _ le => here.mono le

end

end Evaluation

theorem Expr.value_whole {e : Expr} {context v : Data} (whole : context.Whole)
    (found : e.value context = .ok v) : v.Whole := by
  have made : Made (· ≠ .missing) (context.labelled 0).2 (context.labelled 0).1 :=
    every_normalize (fun _ => id) (.inr (whole.labelled 0))
  rw [Expr.value_eq] at found
  cases ran : (e.eval (context.labelled 0).1).run (context.labelled 0).2 with
  | error =>
    rw [ran] at found
    cases found
  | ok r =>
    rw [ran] at found
    cases found
    exact (e.eval_gives (fun _ => id) made _ r.1 r.2 (Nat.le_refl _) ran).2.erase

theorem evaluateStrict_whole {text : String} {context v : Data} (whole : context.Whole)
    (found : evaluateStrict text context = .ok v) : v.Whole := by
  rw [evaluateStrict] at found
  split at found
  · cases found
    exact .atom nofun
  · split at found
    · cases found
    · cases found
    · rename_i e _
      cases value : e.value context with
      | error =>
        rw [value] at found
        cases found
      | ok =>
        rw [value] at found
        cases found
        exact Expr.value_whole whole value

theorem evaluateText_whole {text : String} {context : Data} (whole : context.Whole) :
    (evaluateText text context).Whole := by
  have actual : (if context.isVoid then .emptyMap else context).Whole := by
    split
    · exact .map trivial nofun
    · exact whole
  rw [evaluateText]
  split
  · rename_i found
    exact evaluateStrict_whole actual found
  · exact .atom nofun

theorem interpolateText_whole {text : String} {context v : Data} (whole : context.Whole)
    (found : interpolateText text context = .ok v) : v.Whole := by
  rw [interpolateText] at found
  split at found
  · cases found
    exact .atom nofun
  · cases found
    exact evaluateText_whole whole
  · obtain ⟨s, -, rfl⟩ := map_eq_ok.mp found
    exact .atom nofun

/-- Where nothing is missing in the context, nothing is missing at any depth of what a text comes
to, be it an expression, one that must not fail, or a text with placeholders. -/
theorem evaluate_whole (text : String) {context : Data} (whole : context.Whole) :
    (∀ v, evaluateStrict text context = .ok v → v.Whole) ∧
      (evaluate (.text text) context).Whole ∧
      ∀ v, interpolate (.text text) context = .ok v → v.Whole :=
  ⟨fun _ found => evaluateStrict_whole whole found, evaluateText_whole whole,
    fun _ found => interpolateText_whole whole found⟩

theorem evaluate_whole_nested :
    let text := "\x7brows: rows?map(row -> \x7bn: row.n, all: row || row.m\x7d), none: nothing?map(x -> x)?size()\x7d"
    let context := Value.ofEntries [(.text "rows", .ofList [.ofEntries [(.text "n", .int 1)], .null])]
    context.Whole ∧
    (∀ v, evaluateStrict text context = .ok v → v.Whole) ∧
      (evaluate (.text text) context).Whole ∧
      ∀ v, interpolate (.text text) context = .ok v → v.Whole := by
  intro text context
  have whole : context.Whole := by simp [context, Value.Whole, Value.ofEntries, Value.ofList]
  exact ⟨whole, evaluate_whole text whole⟩

end Walkthrough.Expression
