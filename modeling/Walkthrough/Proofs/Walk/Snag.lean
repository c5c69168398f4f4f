import Walkthrough.Proofs.Value.Overlong
import Walkthrough.Proofs.Walk.Run

/-! Where a walk cannot go on. A whole number beyond every double has no truth, one with too many
digits cannot stand in the log, and a call whose name is not text cannot be named: these places and
no others let a walk leave by an error. -/
namespace Walkthrough

def Surroundings.Truthless (env : Surroundings) (condition : Data) : Prop :=
  ∃ n : Int, Walk.value env condition = .int n ∧ overflowsDouble n = true

/-- A decision of which the log cannot keep a line: it shows the condition, what it comes to, and the
names of the responses. -/
def Surroundings.Unlogged (env : Surroundings) (condition : Data) : Prop :=
  condition.Overlong ∨ (Walk.value env condition).Overlong ∨
    ∃ entry ∈ env.context.responses, entry.1.Overlong

/-- A call for which neither its response nor itself gives a name that is text. -/
def Unnamed (name response : Data) : Prop :=
  ∀ t, (response.orElse name).orElse (.text "unknown_api") ≠ .text t

inductive Walk.Snag (env : Surroundings) (w : Walk) : Prop where
  | decision {id : String} {e : Data} {yes no : List Node}
      (here : w.top.frame.node? = some (.decision id e yes no))
      (stuck : env.Truthless (localized e env.settings.locale) ∨
        env.Unlogged (localized e env.settings.locale))
  | whileLoop {id : String} {e : Data} {actions : List Node}
      (here : w.top.frame.node? = some (.whileLoop id e actions))
      (stuck : env.Truthless (localized e env.settings.locale) ∨
        (localized e env.settings.locale).Overlong)
  | repetition {owner : String} {e : Data} (spent : w.top.frame.node? = none)
      (kind : w.top.frame.kind = .loop owner e) (truthless : env.Truthless e)
  | call {id : String} {name response : Data} {ended : Bool}
      (here : w.top.frame.node? = some (.call id name response ended))
      (unnamed : Unnamed name response)

theorem not_zero_of_overflowsDouble {n : Int} (large : overflowsDouble n = true) :
    (Number.int n).equals .zero = false := by
  rw [Bool.eq_false_iff]
  intro zero
  cases Number.eq_zero_of_equals zero
  have small : overflowsDouble 0 = false := by decide +kernel
  cases large.symm.trans small

theorem truth_eq_error_iff {v : Data} : (∃ f, v.truth = .error f) ↔
    ∃ n : Int, v = .int n ∧ overflowsDouble n = true := by
  constructor
  · rintro ⟨f, fault⟩
    cases v with
    | list => cases fault
    | map => cases fault
    | atom s =>
      cases s with
      | number n =>
        cases n with
        | int n =>
          simp only [Value.truth, Number.overflows] at fault
          cases large : overflowsDouble n with
          | true => exact ⟨n, rfl, large⟩
          | false => split at fault <;> simp [large] at fault
        | double d =>
          simp only [Value.truth, Number.overflows] at fault
          split at fault
          · cases fault
          · simp at fault
      | _ => cases fault
  · rintro ⟨n, rfl, large⟩
    exact ⟨.numberTooLarge, by
      simp [Value.truth, not_zero_of_overflowsDouble large, Number.overflows, large]⟩

theorem variableName_eq_error_iff {name response : Data} :
    (∃ e, variableName name response = .error e) ↔ Unnamed name response := by
  simp only [variableName, Unnamed]
  split
  · rename_i t text
    simp [text]
  · rename_i other
    exact ⟨fun _ => other, fun _ => ⟨_, rfl⟩⟩

theorem responseNames_eq_error_iff {c : Context} : (∃ f, Walk.responseNames c = .error f) ↔
    ∃ entry ∈ c.responses, entry.1.Overlong := by
  rw [Walk.responseNames, exists_map_eq_error, exists_mapM_eq_error]
  simp only [Value.shown_eq_error_iff, Value.overlong_atom_iff]

theorem decisionLine_eq_error_iff {env : Surroundings} {e : Data} :
    (∃ f, Walk.decisionLine env.context e (Walk.value env e) = .error f) ↔ env.Unlogged e := by
  rw [Surroundings.Unlogged, ← Value.listed_eq_error_iff e, ← Value.shown_eq_error_iff,
    ← responseNames_eq_error_iff, Walk.decisionLine]
  cases e.listed with
  | error f => exact iff_of_true ⟨f, rfl⟩ (.inl ⟨f, rfl⟩)
  | ok condition =>
    rw [or_iff_right (by rintro ⟨f, ⟨⟩⟩)]
    exact exists_both_eq_error

namespace Walk

variable {env : Surroundings} {w v u : Walk} {s : Stop} {status : Status} {e : Escape} {k n : Nat}

/-- Two things that are computed before a walk goes on stop it if one of them fails. -/
theorem unlessFault_both {α β : Type} {r : Except Fault α} {t : Except Fault β}
    (fails : (∃ f, r = .error f) ∨ ∃ f, t = .error f) (go : α → β → Step) :
    ∃ f, (w.unlessFault r fun a => w.unlessFault t (go a)) = .stop w (.escaped .running (.fault f)) := by
  cases r with
  | error f => exact ⟨f, rfl⟩
  | ok a =>
    obtain ⟨f, ⟨⟩⟩ | ⟨f, rfl⟩ := fails
    exact ⟨f, rfl⟩

theorem step_of_here {n : Node} (here : w.top.frame.node? = some n) :
    w.step env = w.atNode env n := by
  simp only [Walk.step, here]

theorem Snag.step (h : w.Snag env) : ∃ status e, w.step env = .stop w (.escaped status e) := by
  cases h with
  | decision here stuck =>
    rw [Surroundings.Truthless, ← truth_eq_error_iff, ← decisionLine_eq_error_iff] at stuck
    obtain ⟨f, stops⟩ := unlessFault_both (w := w) stuck _
    exact ⟨_, _, (step_of_here here).trans stops⟩
  | whileLoop here stuck =>
    rw [Surroundings.Truthless, ← truth_eq_error_iff, ← Value.listed_eq_error_iff] at stuck
    obtain ⟨f, stops⟩ := unlessFault_both (w := w) stuck.symm _
    exact ⟨_, _, (step_of_here here).trans stops⟩
  | repetition spent kind truthless =>
    obtain ⟨f, fault⟩ := truth_eq_error_iff.mpr truthless
    exact ⟨_, _, by simp only [Walk.step, spent, atEnd, kind, fault]; rfl⟩
  | call here unnamed =>
    obtain ⟨f, fault⟩ := variableName_eq_error_iff.mpr unnamed
    exact ⟨_, _, by simp only [Walk.step, here, atNode, fault]; rfl⟩

theorem runCapped_of_stop (reached : w.after env k = some v) (stop : v.step env = .stop u s)
    (less : k < n) : w.runCapped env n = (u, s) := by
  induction k generalizing w n with
  | zero =>
    cases reached
    obtain ⟨m, rfl⟩ := Nat.exists_eq_succ_of_ne_zero (Nat.ne_of_gt less)
    simp only [runCapped, stop]
  | succ k ih =>
    obtain ⟨m, rfl⟩ := Nat.exists_eq_succ_of_ne_zero (Nat.ne_zero_of_lt less)
    cases step : w.step env with
    | go w' =>
      rw [after_succ_of_go step] at reached
      simp only [runCapped, step]
      exact ih reached (Nat.lt_of_succ_lt_succ less)
    | stop w' t => simp [after_succ_of_stop step] at reached

end Walk

end Walkthrough
