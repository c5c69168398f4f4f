import Walkthrough.Expression.Evaluator
import Walkthrough.Proofs.Value.Relabel

/-! Which labels an evaluation meets and hands out does not matter, as long as different ones stay
different. Started further on, an evaluation makes the same containers with labels further on. So
what is evaluated before an expression shows in nothing but the labels of its value. -/
namespace Walkthrough.Expression

open Value

/-- A change of labels that keeps them apart, and that moves up those from a bound on. -/
structure Shifts (free shift : Nat) (ρ : Nat → Nat) : Prop where
  injective : Function.Injective ρ
  above : ∀ label, free ≤ label → ρ label = label + shift

theorem Shifts.sameLabel_eq {free shift : Nat} {ρ : Nat → Nat} (shifts : Shifts free shift ρ)
    (a b : Nat) : sameLabel (ρ a) (ρ b) = sameLabel a b := by
  simp only [sameLabel, Bool.beq_eq_decide_eq, shifts.injective.eq_iff]

/-- Labels from a bound on moved up, those below left where they are. -/
def moved (free shift label : Nat) : Nat := if label < free then label else label + shift

theorem moved_of_lt {free shift label : Nat} (old : label < free) :
    moved free shift label = label := if_pos old

theorem moved_of_le {free shift label : Nat} (new : free ≤ label) :
    moved free shift label = label + shift := if_neg (Nat.not_lt.mpr new)

theorem moved_shifts (free shift : Nat) : Shifts free shift (moved free shift) where
  injective a b same := by
    unfold moved at same
    split at same <;> split at same <;> omega
  above _ new := moved_of_le new

/-- The next label never falls below a bound. -/
def Stays {α : Type} (free : Nat) (x : Eval α) : Prop :=
  ∀ n a m, free ≤ n → x.run n = .ok (a, m) → free ≤ m

namespace Stays

variable {α β : Type} {free : Nat}

theorem pure (a : α) : Stays free (pure a) := by
  rintro n _ _ le ⟨⟩
  exact le

theorem bind {x : Eval α} {next : α → Eval β} (first : Stays free x)
    (rest : ∀ a, Stays free (next a)) : Stays free (x >>= next) := by
  intro n b k le ran
  rw [StateT.run_bind] at ran
  cases ran' : x.run n with
  | error =>
    rw [ran'] at ran
    cases ran
  | ok p =>
    rw [ran'] at ran
    exact rest p.1 p.2 b k (first n p.1 p.2 le ran') ran

theorem lift (r : Except Fault α) : Stays free (liftM r) := by
  intro n a m le ran
  cases r with
  | error => cases ran
  | ok =>
    cases ran
    exact le

end Stays

/-- Started with its labels moved up, the second computation does what the first does. -/
structure Moves {α β : Type} (free shift : Nat) (f : α → β) (x : Eval α) (y : Eval β) : Prop where
  run : ∀ n, free ≤ n → y.run (n + shift) = (x.run n).map fun p => (f p.1, p.2 + shift)
  stays : Stays free x

namespace Moves

variable {α β γ δ : Type} {free shift : Nat} {f : α → β} {g : γ → δ}

theorem pure (a : α) : Moves free shift f (pure a) (pure (f a)) where
  run _ _ := rfl
  stays := .pure a

theorem bind {x : Eval α} {y : Eval β} {next : α → Eval γ} {next' : β → Eval δ}
    (first : Moves free shift f x y) (rest : ∀ a, Moves free shift g (next a) (next' (f a))) :
    Moves free shift g (x >>= next) (y >>= next') where
  run n le := by
    rw [StateT.run_bind, StateT.run_bind, first.run n le]
    -- the rest starts where the first part stopped, which is above the bound as well
    cases ran : x.run n with
    | error => rfl
    | ok p => exact (rest p.1).run p.2 (first.stays n p.1 p.2 le ran)
  stays := first.stays.bind fun a => (rest a).stays

theorem lift (r : Except Fault α) : Moves free shift f (liftM r) (liftM (r.map f)) where
  run n le := by cases r <;> rfl
  stays := .lift r

theorem fresh {ρ : Nat → Nat} (shifts : Shifts free shift ρ) : Moves free shift ρ fresh fresh where
  run n le := by
    change Except.ok (n + shift, n + shift + 1) = .ok (ρ n, n + 1 + shift)
    rw [shifts.above n le, Nat.add_right_comm]
  stays := by
    rintro n _ _ le ⟨⟩
    exact Nat.le_succ_of_le le

theorem absorb {ρ : Nat → Nat} {x y : Eval Result} (moves : Moves free shift (relabel ρ) x y) :
    Moves free shift (relabel ρ) (absorb x) (absorb y) where
  run n le := by
    have ran := moves.run n le
    simp only [Expression.absorb, StateT.run] at ran ⊢
    rw [ran]
    cases x n <;> rfl
  stays := by
    intro n a m le ran
    simp only [Expression.absorb, StateT.run] at ran
    split at ran
    · rename_i kept
      cases ran
      exact moves.stays n _ _ le kept
    · cases ran
      exact le

/-- One computation per item, from left to right. -/
theorem mapM {k : α → Eval γ} {k' : β → Eval δ} (each : ∀ a, Moves free shift g (k a) (k' (f a)))
    (items : List α) : Moves free shift (List.map g) (items.mapM k) ((items.map f).mapM k') := by
  induction items with
  | nil => exact .pure []
  | cons a rest ih =>
    rw [List.map_cons, List.mapM_cons, List.mapM_cons]
    exact (each a).bind fun c => ih.bind fun cs => .pure (c :: cs)

theorem ask (r : Except Fault α) : Moves free shift id (liftM r) (liftM r) := by
  have lifted : Moves free shift id (liftM r) (liftM (r.map id)) := lift r
  rwa [Except.map_id] at lifted

variable {ρ : Nat → Nat}

theorem isTrue (v : Result) : Moves free shift id (isTrue v) (isTrue (v.relabel ρ)) := by
  rw [Expression.isTrue, Expression.isTrue, truth_relabel]
  exact ask v.truth

theorem newList (shifts : Shifts free shift ρ) (items : List Result) :
    Moves free shift (relabel ρ) (newList items) (newList (items.map (relabel ρ))) := by
  refine (fresh shifts).bind fun label => ?_
  rw [← relabelItems_eq_map]
  exact Moves.pure (Value.list label items)

theorem newMap (shifts : Shifts free shift ρ) (entries : Entries Nat) :
    Moves free shift (relabel ρ) (newMap entries) (newMap (relabelEntries ρ entries)) :=
  (fresh shifts).bind fun label => .pure (Value.map label entries)

theorem firstTrue (v : Result) (rest : List Result) :
    Moves free shift (relabel ρ) (firstTrue v rest)
      (firstTrue (v.relabel ρ) (relabelItems ρ rest)) := by
  induction rest generalizing v with
  | nil => exact .pure v
  | cons next rest ih =>
    refine (isTrue v).bind fun b => ?_
    cases b with
    | true => exact ih v
    | false => exact ih next

theorem firstFalse (v : Result) (rest : List Result) :
    Moves free shift (relabel ρ) (firstFalse v rest)
      (firstFalse (v.relabel ρ) (relabelItems ρ rest)) := by
  induction rest generalizing v with
  | nil => exact .pure v
  | cons next rest ih =>
    refine (isTrue v).bind fun b => ?_
    cases b with
    | true => exact ih next
    | false => exact ih v

theorem compareValues (shifts : Shifts free shift ρ) (comparison : Comparison) (a b : Result) :
    Moves free shift id (compareValues comparison a b)
      (compareValues comparison (a.relabel ρ) (b.relabel ρ)) := by
  have same := looseEquals_relabel shifts.sameLabel_eq a b
  cases comparison with
  | equal =>
    rw [Expression.compareValues, Expression.compareValues, same]
    exact ask _
  | unequal =>
    rw [Expression.compareValues, Expression.compareValues, same]
    exact (ask _).bind fun b => pure !b
  | relation r =>
    rw [Expression.compareValues, Expression.compareValues, compare_relabel]
    exact ask (a.compare r b)

theorem withItem (item : String) (v context : Result) :
    Moves free shift (relabel ρ) (withItem item v context)
      (withItem item (v.relabel ρ) (context.relabel ρ)) := by
  cases context with
  | map label entries =>
    rw [relabel, Expression.withItem, Expression.withItem, Entries.insert_relabel]
    exact pure (Value.map label (Entries.insert entries (.text item) v))
  | atom | list => exact lift (.error .contextNotMap)

end Moves

theorem size_relabel (ρ : Nat → Nat) (v : Result) : size (v.relabel ρ) = size v := by
  cases v with
  | atom s => cases s <;> rfl
  | list label items => rw [relabel, size, relabelItems_eq_map, List.length_map, size]
  | map label entries => rw [relabel, size, relabelEntries_eq_map, List.length_map, size]

theorem hasContent_relabel (ρ : Nat → Nat) (v : Result) : hasContent (v.relabel ρ) = hasContent v := by
  cases v with
  | atom s => cases s <;> rfl
  | list label items => cases items <;> rfl
  | map label entries => cases entries <;> rfl

section Evaluation

variable {free shift : Nat} {ρ : Nat → Nat}

mutual

theorem Expr.eval_moves (shifts : Shifts free shift ρ) (e : Expr) (context : Result) :
    Moves free shift (relabel ρ) (e.eval context) (e.eval (context.relabel ρ)) := by
  match e with
  | .literal s => exact .pure (Value.atom s)
  | .unread _ => exact .lift (.error .tooManyDigits)
  | .path p =>
    rw [Expr.eval, Expr.eval, resolve_relabel]
    exact .lift _
  | .either first rest =>
    exact (first.eval_moves shifts context).bind fun v =>
      (evalAll_moves shifts rest context).bind fun vs => .firstTrue v vs
  | .both first rest =>
    exact (first.eval_moves shifts context).bind fun v =>
      (evalAll_moves shifts rest context).bind fun vs => .firstFalse v vs
  | .choose condition yes no =>
    refine (condition.eval_moves shifts context).bind fun v => (Moves.isTrue v).bind fun b => ?_
    cases b with
    | true => exact yes.eval_moves shifts context
    | false => exact no.eval_moves shifts context
  | .compare comparison left right =>
    exact (left.eval_moves shifts context).bind fun a =>
      (right.eval_moves shifts context).bind fun b =>
        (Moves.compareValues shifts comparison a b).bind fun answer => .pure (Value.bool answer)
  | .not e =>
    exact (e.eval_moves shifts context).bind fun v =>
      (Moves.isTrue v).bind fun b => .pure (Value.bool !b)
  | .exist p =>
    rw [Expr.eval, Expr.eval, resolve_relabel]
    exact (Moves.lift (resolve p context)).bind fun v => by
      rw [isNullish_relabel]
      exact .pure (Value.bool !v.isNullish)
  | .concat parts =>
    exact (evalTexts_moves shifts parts context).bind fun texts =>
      .pure (Value.text ("".intercalate texts))
  | .object properties =>
    refine (evalProperties_moves shifts properties context).bind fun entries => ?_
    rw [Entries.ofList_relabel]
    exact .newMap shifts (Entries.ofList entries)
  | .chain base stages =>
    exact (base.eval_moves shifts context).absorb.bind fun v => applyAll_moves shifts stages v context

theorem evalAll_moves (shifts : Shifts free shift ρ) (es : List Expr) (context : Result) :
    Moves free shift (relabelItems ρ) (evalAll es context) (evalAll es (context.relabel ρ)) := by
  match es with
  | [] => exact .pure []
  | e :: rest =>
    exact (e.eval_moves shifts context).bind fun v =>
      (evalAll_moves shifts rest context).bind fun vs => .pure (v :: vs)

theorem evalTexts_moves (shifts : Shifts free shift ρ) (es : List Expr) (context : Result) :
    Moves free shift id (evalTexts es context) (evalTexts es (context.relabel ρ)) := by
  match es with
  | [] => exact .pure []
  | e :: rest =>
    refine (e.eval_moves shifts context).bind fun v => ?_
    rw [display_relabel]
    exact (Moves.ask v.display).bind fun first =>
      (evalTexts_moves shifts rest context).bind fun texts => .pure (first :: texts)

theorem evalProperties_moves (shifts : Shifts free shift ρ) (properties : List (String × Expr))
    (context : Result) :
    Moves free shift (relabelEntries ρ) (evalProperties properties context)
      (evalProperties properties (context.relabel ρ)) := by
  match properties with
  | [] => exact .pure []
  | (name, e) :: rest =>
    exact (e.eval_moves shifts context).absorb.bind fun v =>
      (evalProperties_moves shifts rest context).bind fun entries => by
        rw [normalize_relabel]
        exact .pure ((.text name, v.normalize) :: entries)

theorem applyAll_moves (shifts : Shifts free shift ρ) (stages : List Stage) (v context : Result) :
    Moves free shift (relabel ρ) (applyAll stages v context)
      (applyAll stages (v.relabel ρ) (context.relabel ρ)) := by
  match stages with
  | [] => exact .pure v
  | stage :: rest =>
    exact (stage.apply_moves shifts v context).bind fun w => applyAll_moves shifts rest w context

theorem Stage.apply_moves (shifts : Shifts free shift ρ) (stage : Stage) (v context : Result) :
    Moves free shift (relabel ρ) (stage.apply v context)
      (stage.apply (v.relabel ρ) (context.relabel ρ)) := by
  match stage with
  | .string =>
    refine (Moves.isTrue v).bind fun b => ?_
    rw [string_relabel]
    cases b with
    | true => exact (Moves.ask v.string).bind fun text => .pure (Value.text text)
    | false => exact .pure (Value.text "")
  | .size =>
    rw [Stage.apply, Stage.apply, size_relabel]
    exact .pure (Value.int (size v))
  | .hasContent =>
    rw [Stage.apply, Stage.apply, hasContent_relabel]
    exact .pure (Value.bool (hasContent v))
  | .join separator =>
    cases v with
    | list label items =>
      rw [relabel, Stage.apply, Stage.apply, displays_relabelItems]
      exact (Moves.ask (displays items)).bind fun texts =>
        .pure (Value.text (separator.intercalate texts))
    | atom s => exact .pure (Value.atom s)
    | map label entries => exact .pure (Value.map label entries)
  | .split separator =>
    cases v with
    | list label items => exact .pure (Value.list label items)
    | map label entries => exact .pure (Value.map label entries)
    | atom s =>
      cases s with
      | text s =>
        have made : Moves free shift _ (newList ((splitText separator s).map fun part => .text part)) _ :=
          .newList shifts _
        rw [List.map_map] at made
        exact made
      | _ => exact .pure (Value.atom _)
  | .map item body =>
    cases v with
    | list label items =>
      rw [relabel, Stage.apply, Stage.apply, relabelItems_eq_map]
      refine Moves.bind (Moves.mapM (fun v => ?_) items) fun mapped => .newList shifts mapped
      refine (Moves.withItem item v context).bind fun inner =>
        (body.eval_moves shifts inner).absorb.bind fun w => ?_
      rw [normalize_relabel]
      exact .pure w.normalize
    | atom s => exact .pure (Value.atom s)
    | map label entries => exact .pure (Value.map label entries)
  | .unknown raw => exact .pure v

end

end Evaluation

/-- The value with which an evaluation ends. -/
def settled (v : Result) : Data := v.normalize.erase

theorem settled_relabel (ρ : Nat → Nat) (v : Result) : settled (v.relabel ρ) = settled v := by
  rw [settled, normalize_relabel, erase_relabel, settled]

theorem truth_settled (v : Result) : (settled v).truth = v.truth := by
  rw [settled, erase_eq_relabel, truth_relabel, truth_normalize]

theorem display_settled (v : Result) : (settled v).display = v.display := by
  rw [settled, erase_eq_relabel, display_relabel, display_normalize]

/-- Wherever labels start, the computation comes to the same. -/
structure Yields {α β : Type} (free : Nat) (f : α → β) (x : Eval α) (r : Except Fault β) : Prop where
  run : ∀ n, free ≤ n → (x.run n).map (fun p => f p.1) = r
  stays : Stays free x

theorem Expr.value_eq (e : Expr) (context : Data) : e.value context =
    ((e.eval (context.labelled 0).1).run (context.labelled 0).2).map fun p => settled p.1 := rfl

theorem Expr.eval_yields (e : Expr) (context : Data) :
    Yields (context.labelled 0).2 settled (e.eval (context.labelled 0).1) (e.value context) := by
  have moves (shift : Nat) :=
    e.eval_moves (moved_shifts (context.labelled 0).2 shift) (context.labelled 0).1
  simp only [relabel_labelled context fun k old => moved_of_lt old] at moves
  refine ⟨fun n le => ?_, (moves 0).stays⟩
  have ran := (moves (n - (context.labelled 0).2)).run _ (Nat.le_refl _)
  rw [Nat.add_sub_cancel' le] at ran
  rw [ran, Expr.value_eq]
  cases (e.eval (context.labelled 0).1).run (context.labelled 0).2 with
  | error => rfl
  | ok p => exact congrArg Except.ok (settled_relabel _ p.1)

namespace Yields

variable {α β γ δ : Type} {free : Nat} {f : α → β} {g : γ → δ}

theorem pure (a : α) : Yields free f (pure a) (pure (f a)) where
  run _ _ := rfl
  stays := .pure a

theorem bind {x : Eval α} {r : Except Fault β} {next : α → Eval γ} {next' : β → Except Fault δ}
    (first : Yields free f x r) (rest : ∀ a, Yields free g (next a) (next' (f a))) :
    Yields free g (x >>= next) (r >>= next') where
  run n le := by
    rw [StateT.run_bind, ← first.run n le]
    cases ran : x.run n with
    | error => rfl
    | ok p => exact (rest p.1).run p.2 (first.stays n p.1 p.2 le ran)
  stays := first.stays.bind fun a => (rest a).stays

theorem ask (r : Except Fault α) : Yields free id (liftM r) r where
  run n le := by cases r <;> rfl
  stays := .lift r

theorem isTrue (v : Result) : Yields free id (isTrue v) (settled v).truth := by
  rw [truth_settled, Expression.isTrue]
  exact ask v.truth

theorem display (v : Result) : Yields free id (liftM v.display) (settled v).display := by
  rw [display_settled]
  exact ask v.display

end Yields

end Walkthrough.Expression
