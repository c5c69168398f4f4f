import Walkthrough.Proofs.Walk.Run

/-! Walks that end and walks that do not. Every transition uses up work that lies ahead, as long as
loops are repeated no more often than counted; without a ceiling a second repetition is at a place
where the walk has been before, and so is all that follows. What is found within the bound is
therefore all there is to find. -/
namespace Walkthrough

def Active.advance (a : Active) : Active := { a with frame := a.frame.advance }

/-- The work ahead in a frame whose loop is repeated so many times in all. -/
def Active.ahead (m : Nat) (a : Active) : Nat :=
  Node.workAll m (a.frame.nodes.drop a.frame.index) +
    match a.frame.kind with
    | .loop .. => (m - a.passes) * Node.workAll m a.frame.nodes
    | _ => 0

/-- Lower frames go on behind the nodes at which they stand. -/
def Active.aheadAll (m : Nat) : List Active → Nat
  | [] => 0
  | a :: rest => a.advance.ahead m + aheadAll m rest

def Walk.ahead (m : Nat) (w : Walk) : Nat := w.top.ahead m + Active.aheadAll m w.below

namespace Node

variable {env : Surroundings} {n : Node} {m : Nat}

theorem work_pos (m : Nat) (n : Node) : 0 < n.work m := by
  cases n <;> simp only [work] <;> omega

theorem workAll_pos (m : Nat) (nodes : List Node) : 0 < workAll m nodes := by
  cases nodes with
  | nil => exact Nat.one_pos
  | cons n rest =>
    have first := work_pos m n
    simp only [workAll]
    omega

theorem workAll_drop_le (m k : Nat) (nodes : List Node) :
    workAll m (nodes.drop k) ≤ workAll m nodes := by
  induction nodes generalizing k with
  | nil => simp
  | cons n rest ih =>
    cases k with
    | zero => exact Nat.le_refl _
    | succ k =>
      have fewer := ih k
      simp only [List.drop_succ_cons, workAll]
      omega

theorem Opens.ahead_lt {block : List Node} {kind : FrameKind} (opened : n.Opens env block kind)
    (m : Nat) : Active.ahead m ⟨⟨block, 0, kind⟩, 0⟩ < n.work m := by
  cases opened with
  | branch taken _ _ =>
    simp only [Active.ahead, List.drop_zero, work]
    cases taken <;> simp <;> omega
  | whileLoop _ | doWhile =>
    simp only [Active.ahead, List.drop_zero, work, Nat.sub_zero, Nat.succ_mul]
    omega

end Node

namespace Active

variable {a : Active} {n : Node} {m : Nat}

theorem ahead_pos (m : Nat) (a : Active) : 0 < a.ahead m := by
  have first := Node.workAll_pos m (a.frame.nodes.drop a.frame.index)
  simp only [ahead]
  omega

theorem ahead_of_here (here : a.frame.node? = some n) (m : Nat) :
    a.ahead m = n.work m + a.advance.ahead m := by
  simp only [ahead, advance, Frame.advance, Frame.drop_of_here here, Node.workAll]
  omega

theorem ahead_again {owner : String} {e : Data} (spent : a.frame.node? = none)
    (kind : a.frame.kind = .loop owner e) (few : a.passes + 1 ≤ m) :
    ahead m ⟨{ a.frame with index := 0 }, a.passes + 1⟩ < a.ahead m := by
  obtain ⟨rest, more⟩ : ∃ rest, m - a.passes = rest + 1 ∧ m - (a.passes + 1) = rest :=
    ⟨m - (a.passes + 1), by omega, rfl⟩
  simp only [ahead, kind, Frame.drop_of_spent spent, List.drop_zero, more, Node.workAll,
    Nat.succ_mul]
  omega

end Active

namespace Walk

variable {env : Surroundings} {w w' v : Walk} {i j k m n : Nat}

theorem Moves.ahead_lt (moves : w.Moves env w') (few : w'.top.passes ≤ m) :
    w'.ahead m < w.ahead m := by
  cases moves with
  | opens here opened =>
    have less := opened.ahead_lt m
    simp only [ahead, Active.aheadAll, Active.ahead_of_here here m]
    omega
  | @passes n log here _ =>
    have work := Node.work_pos m n
    simp only [ahead, Active.ahead_of_here here m]
    exact Nat.add_lt_add_right (Nat.lt_add_of_pos_left work) _
  | again spent kind _ _ => exact Nat.add_lt_add_right (Active.ahead_again spent kind few) _
  | @leaves parent rest log _ _ below =>
    have top := Active.ahead_pos m w.top
    simp only [ahead, below, Active.aheadAll]
    exact Nat.lt_add_of_pos_left top

theorem after_ahead_le (few : ∀ i ≤ k, ∀ u, w.after env i = some u → u.top.passes ≤ m)
    (h : w.after env k = some v) : v.ahead m + k ≤ w.ahead m := by
  induction k generalizing w with
  | zero =>
    cases h
    exact Nat.le_refl _
  | succ k ih =>
    cases step : w.step env with
    | go u =>
      have shift {i : Nat} := after_succ_of_go (n := i) step
      have less := (moves_of_step step).ahead_lt (few 1 (by omega) u (shift.trans rfl))
      have rest := ih (fun i le x reached => few (i + 1) (by omega) x (shift.trans reached))
        (shift.symm.trans h)
      omega
    | stop u s => simp [after_succ_of_stop step] at h

theorem runWithin_eq_none_iff : w.runWithin env n = none ↔ (w.after env n).isSome := by
  induction n generalizing w with
  | zero => simp [runWithin, after]
  | succ n ih =>
    cases step : w.step env with
    | go u => simp only [runWithin, after, step, ih]
    | stop u s => simp [runWithin, after, step]

theorem after_add (w : Walk) (i k : Nat) :
    w.after env (i + k) = (w.after env i).bind fun v => v.after env k := by
  induction i generalizing w with
  | zero => simp [after]
  | succ i ih =>
    rw [Nat.succ_add]
    cases step : w.step env with
    | go u => simp only [after_succ_of_go step, ih]
    | stop u s => simp [after_succ_of_stop step]

theorem after_isSome_of_le (le : i ≤ k) (h : (w.after env k).isSome) :
    (w.after env i).isSome := by
  obtain ⟨d, rfl⟩ := Nat.exists_eq_add_of_le le
  rw [after_add] at h
  cases reached : w.after env i with
  | none => simp [reached] at h
  | some v => rfl

theorem after_succ_eq_some (h : w.after env (k + 1) = some v) :
    ∃ u, w.after env k = some u ∧ u.step env = .go v := by
  rw [after_add] at h
  obtain ⟨u, reached, last⟩ := Option.bind_eq_some_iff.mp h
  refine ⟨u, reached, ?_⟩
  cases step : u.step env with
  | go x =>
    rw [after_succ_of_go step] at last
    cases last
    rfl
  | stop x s => simp [after_succ_of_stop step] at last

end Walk

def Step.stack? : Step → Option Stack
  | .go w => some w.stack
  | .stop .. => none

namespace Walk

variable {env : Surroundings} {w w' u v x : Walk} {i j k n : Nat}

theorem leave_stack (below : w.below.map Active.frame = v.below.map Active.frame) :
    (leave env w).stack? = (leave env v).stack? := by
  cases left : w.below with
  | nil =>
    have right : v.below = [] := by simpa [left] using below.symm
    simp [leave, left, right, Step.stack?]
  | cons a rest =>
    rw [left, List.map_cons] at below
    obtain ⟨b, others, right, same, rest'⟩ := List.map_eq_cons_iff.mp below.symm
    simp [leave, left, right, Step.stack?, Walk.stack, same, rest']

theorem unlessFault_stack {α : Type} {f g : α → Step} (each : ∀ a, (f a).stack? = (g a).stack?)
    (r : Except Fault α) : (w.unlessFault r f).stack? = (v.unlessFault r g).stack? := by
  cases r with
  | error => rfl
  | ok a => exact each a

/-- Without a ceiling on loops nothing but the place matters. -/
theorem step_stack (unlimited : env.settings.maxLoopIterations.count = none)
    (same : w.stack = v.stack) : (w.step env).stack? = (v.step env).stack? := by
  obtain ⟨⟨f, p⟩, below, log⟩ := w
  obtain ⟨⟨f', p'⟩, below', log'⟩ := v
  simp only [stack, Stack.mk.injEq] at same
  obtain ⟨rfl, below_eq⟩ := same
  cases here : f.node? with
  | some n =>
    simp only [step, here]
    cases n with
    | decision id e yes no =>
      refine unlessFault_stack (fun taken => unlessFault_stack (fun line => ?_) _) _
      generalize (if taken then yes else no) = block
      dsimp only
      split <;> simp [Step.stack?, stack, advance, push, note, below_eq]
    | whileLoop id e actions =>
      refine unlessFault_stack (fun listed => unlessFault_stack (fun taken => ?_) _) _
      cases taken <;> simp [Step.stack?, stack, advance, push, note, below_eq]
    | doWhile id e actions => simp [atNode, Step.stack?, stack, push, note, below_eq]
    | interaction => rfl
    | call id name response ended =>
      simp only [atNode]
      split <;> rfl
    | unknown => rfl
  | none =>
    simp only [step, here, atEnd]
    split
    · refine unlessFault_stack (fun repeated => ?_) _
      cases repeated with
      | true => simp [again, Ceiling.allows, unlimited, Step.stack?, stack, note, below_eq]
      | false => exact leave_stack below_eq
    · exact leave_stack below_eq

theorem after_stack (unlimited : env.settings.maxLoopIterations.count = none)
    (same : w.stack = v.stack) : (w.after env n).isSome = (v.after env n).isSome := by
  induction n generalizing w v with
  | zero => rfl
  | succ n ih =>
    have steps := step_stack unlimited same
    simp only [after]
    cases left : w.step env <;> cases right : v.step env <;>
      simp only [left, right, Step.stack?, Option.some.injEq, reduceCtorEq] at steps
    · exact ih steps
    · rfl

/-- A walk that comes to a place twice goes on for ever. -/
theorem after_isSome_of_revisit (unlimited : env.settings.maxLoopIterations.count = none)
    (first : w.after env j = some x) (second : w.after env i = some u) (later : j < i)
    (same : x.stack = u.stack) (n : Nat) : (w.after env n).isSome := by
  induction n using Nat.strongRecOn with
  | ind n ih =>
    by_cases early : n ≤ i
    · exact after_isSome_of_le early (by simp [second])
    · -- what follows the second visit has already followed the first
      obtain ⟨d, rfl⟩ := Nat.exists_eq_add_of_le (Nat.le_of_lt (Nat.lt_of_not_le early))
      have before := ih (j + d) (by omega)
      rw [after_add, first, Option.bind_some] at before
      rw [after_add, second, Option.bind_some, ← after_stack unlimited same]
      exact before

def Few (m : Nat) (w : Walk) : Prop := ∀ a ∈ w.top :: w.below, a.passes ≤ m

/-- A loop is begun again, at the place where it began before. -/
structure Repeats (env : Surroundings) (w w' : Walk) : Prop where
  passes : w'.top.passes = w.top.passes + 1
  frame : w'.top.frame = { w.top.frame with index := 0 }
  below : w'.below = w.below
  allowed : env.settings.maxLoopIterations.allows (w.top.passes + 1) = true

theorem Moves.few_or_repeats (moves : w.Moves env w') (few : w.Few m) :
    w'.Few m ∨ w.Repeats env w' := by
  cases moves with
  | opens _ _ =>
    refine .inl fun a member => ?_
    rcases List.mem_cons.mp member with rfl | older
    · exact Nat.zero_le m
    · exact few a older
  | passes _ _ =>
    refine .inl fun a member => ?_
    rcases List.mem_cons.mp member with rfl | older
    · exact few w.top (List.mem_cons_self ..)
    · exact few a (List.mem_cons_of_mem _ older)
  | again _ _ _ allowed => exact .inr ⟨rfl, rfl, rfl, allowed⟩
  | @leaves parent rest log _ _ below =>
    rw [Few, below] at few
    refine .inl fun a member => ?_
    rcases List.mem_cons.mp member with rfl | older
    · exact few parent (by simp)
    · exact few a (by simp [older])

theorem Repeats.few (again : w.Repeats env w') (few : w.Few m) (less : w.top.passes < m) :
    w'.Few m := by
  intro a member
  rcases List.mem_cons.mp member with rfl | older
  · exact again.passes ▸ less
  · exact few a (List.mem_cons_of_mem _ (again.below ▸ older))

/-- The walk has been at the beginning of every loop that has been repeated. -/
def Traced (env : Surroundings) (w : Walk) (i : Nat) (u : Walk) : Prop :=
  ∀ upper a lower, u.top :: u.below = upper ++ a :: lower → 0 < a.passes →
    ∃ j ≤ i, ∃ x, w.after env j = some x ∧
      x.stack = ⟨{ a.frame with index := 0 }, lower.map Active.frame⟩

theorem Traced.later (traced : w.Traced env i u) {upper lower : List Active} {a : Active}
    (split : u.top :: u.below = upper ++ a :: lower) (repeated : 0 < a.passes) :
    ∃ j ≤ i + 1, ∃ x, w.after env j = some x ∧
      x.stack = ⟨{ a.frame with index := 0 }, lower.map Active.frame⟩ := by
  obtain ⟨j, le, found⟩ := traced upper a lower split repeated
  exact ⟨j, Nat.le_succ_of_le le, found⟩

theorem Moves.traced (moves : u.Moves env v) (traced : w.Traced env i u)
    (reached : w.after env (i + 1) = some v) : w.Traced env (i + 1) v := by
  intro upper a lower split repeated
  cases moves with
  | opens _ _ =>
    cases upper with
    | nil =>
      cases (List.cons.inj split).1
      cases repeated
    | cons _ upper => exact traced.later (List.cons.inj split).2 repeated
  | passes _ _ =>
    cases upper with
    | nil =>
      obtain ⟨rfl, rfl⟩ := List.cons.inj split
      exact traced.later (a := u.top) (List.nil_append _).symm repeated
    | cons b upper =>
      have whole : u.top :: u.below = (u.top :: upper) ++ a :: lower :=
        congrArg (u.top :: ·) (List.cons.inj split).2
      exact traced.later whole repeated
  | again _ _ _ _ =>
    cases upper with
    | nil =>
      obtain ⟨rfl, rfl⟩ := List.cons.inj split
      exact ⟨i + 1, Nat.le_refl _, _, reached, rfl⟩
    | cons b upper =>
      have whole : u.top :: u.below = (u.top :: upper) ++ a :: lower :=
        congrArg (u.top :: ·) (List.cons.inj split).2
      exact traced.later whole repeated
  | @leaves parent rest log _ _ below =>
    cases upper with
    | nil =>
      obtain ⟨rfl, rfl⟩ := List.cons.inj split
      have whole : u.top :: u.below = [u.top] ++ parent :: rest := by simp [below]
      exact traced.later (a := parent) whole repeated
    | cons b upper =>
      have whole : u.top :: u.below = (u.top :: parent :: upper) ++ a :: lower :=
        below ▸ congrArg (u.top :: parent :: ·) (List.cons.inj split).2
      exact traced.later whole repeated

/-- Without a ceiling on loops, a walk that ends repeats no loop twice. -/
theorem few_of_ends (unlimited : env.settings.maxLoopIterations.count = none)
    (few : w.Few 0) (ends : w.after env n = none) (reached : w.after env i = some u) :
    u.Few 1 ∧ w.Traced env i u := by
  induction i generalizing u with
  | zero =>
    cases reached
    refine ⟨fun a member => Nat.le_succ_of_le (few a member), ?_⟩
    intro upper a lower split repeated
    have none : a.passes ≤ 0 := few a (by simp [split])
    omega
  | succ i ih =>
    obtain ⟨v, before, step⟩ := after_succ_eq_some reached
    obtain ⟨fewer, traced⟩ := ih before
    have moves := moves_of_step step
    refine ⟨?_, moves.traced traced reached⟩
    rcases moves.few_or_repeats fewer with kept | again
    · exact kept
    · refine again.few fewer (Nat.lt_of_not_le fun repeated => ?_)
      -- the loop began at this very place before, so the walk would not end
      obtain ⟨j, le, x, first, place⟩ := traced [] v.top v.below rfl repeated
      have same : x.stack = u.stack := by
        rw [place]
        simp only [stack, again.frame, again.below]
      have more := after_isSome_of_revisit unlimited first reached (Nat.lt_succ_of_le le) same n
      simp [ends] at more

theorem few_of_ceiling {most : Nat} (ceiling : env.settings.maxLoopIterations.count = some most)
    (le : most ≤ m) (few : w.Few m) (reached : w.after env i = some u) : u.Few m := by
  refine after_invariant (P := Few m) (fun moves fewer => ?_) few reached
  rcases moves.few_or_repeats fewer with kept | again
  · exact kept
  · have allowed := again.allowed
    simp only [Ceiling.allows, ceiling, Option.all_some, decide_eq_true_eq] at allowed
    exact again.few fewer (by omega)

theorem start_few (m : Nat) (stack : Stack) (log : List String) : (start stack log).Few m := by
  intro a member
  have fresh : a.passes = 0 := by
    rcases List.mem_cons.mp member with rfl | older
    · rfl
    · obtain ⟨f, -, rfl⟩ := List.mem_map.mp older
      rfl
  omega

theorem ahead_start_lt_bound (settings : Settings) (stack : Stack) (log : List String) :
    (start stack log).ahead (repeats settings) < (start stack log).bound settings := by
  have each (f : Frame) :
      Active.ahead (repeats settings) ⟨f, 0⟩ ≤
        (repeats settings + 2) * Node.workAll (repeats settings) f.nodes := by
    have less := Node.workAll_drop_le (repeats settings) f.index f.nodes
    simp only [Active.ahead, Nat.sub_zero, Nat.add_mul, Nat.two_mul]
    split <;> omega
  have lower (frames : List Frame) :
      Active.aheadAll (repeats settings) (frames.map fun f => ⟨f, 0⟩) ≤
        (frames.map fun f => (⟨f, 0⟩ : Active)).foldr (fun a most =>
          (repeats settings + 2) * Node.workAll (repeats settings) a.frame.nodes + most) 0 := by
    induction frames with
    | nil => exact Nat.le_refl _
    | cons f rest ih => exact Nat.add_le_add (each f.advance) ih
  exact Nat.lt_succ_of_le (Nat.add_le_add (each stack.top) (lower stack.below))

/-- A walk that comes to an end does so within its bound. -/
theorem after_bound (stack : Stack) (log : List String)
    (ends : (start stack log).after env n = none) :
    (start stack log).after env ((start stack log).bound env.settings) = none := by
  cases reached : (start stack log).after env ((start stack log).bound env.settings) with
  | none => rfl
  | some v =>
    have few : ∀ i u, (start stack log).after env i = some u →
        u.top.passes ≤ repeats env.settings := by
      intro i u reached
      have few : u.Few (repeats env.settings) := by
        cases ceiling : env.settings.maxLoopIterations.count with
        | none =>
          have one := (few_of_ends ceiling (start_few 0 stack log) ends reached).1
          intro a member
          exact Nat.le_trans (one a member) (Nat.le_max_left ..)
        | some most =>
          have le : most ≤ repeats env.settings := by
            simp only [repeats, ceiling, Option.getD_some]
            omega
          exact few_of_ceiling ceiling le (start_few _ stack log) reached
      exact few u.top (List.mem_cons_self ..)
    -- as many transitions as the bound would have used up more than there was
    have used := after_ahead_le (fun i _ => few i) reached
    have less := ahead_start_lt_bound env.settings stack log
    omega

theorem run_eq_none_iff (stack : Stack) (log : List String) :
    (start stack log).run env = none ↔ env.settings.maxAutoSteps.count = none ∧
      ∀ n, ((start stack log).after env n).isSome := by
  simp only [run]
  split
  · rename_i most ceiling
    simp [ceiling]
  · rename_i unlimited
    rw [runWithin_eq_none_iff]
    constructor
    · intro goes
      refine ⟨unlimited, fun n => ?_⟩
      cases reached : (start stack log).after env n with
      | none => simp [after_bound stack log reached] at goes
      | some v => rfl
    · intro ever
      exact ever.2 _

end Walk

end Walkthrough
