import Walkthrough.Simulation.Walk

/-! What a transition can do, said once. A walk that goes on opens a block, passes a node, repeats a
loop or leaves a frame; a walk that stops stays where it is. Every property of walks is derived
from these cases and none looks into the transition function again. -/
namespace Walkthrough

def Surroundings.truth (env : Surroundings) (condition : Data) : Except Fault Bool :=
  (Walk.value env condition).truth

/-- The block that a walk opens at a node, and the kind of its frame. -/
inductive Node.Opens (env : Surroundings) : Node → List Node → FrameKind → Prop where
  | branch {id : String} {e : Data} {yes no : List Node} (taken : Bool)
      (decided : env.truth (localized e env.settings.locale) = .ok taken)
      (filled : (if taken then yes else no) ≠ []) :
      Opens env (.decision id e yes no) (if taken then yes else no) (.branch id)
  | whileLoop {id : String} {e : Data} {actions : List Node}
      (entered : env.truth (localized e env.settings.locale) = .ok true) :
      Opens env (.whileLoop id e actions) actions (.loop id (localized e env.settings.locale))
  | doWhile {id : String} {e : Data} {actions : List Node} :
      Opens env (.doWhile id e actions) actions (.loop id (localized e env.settings.locale))

inductive Node.Passed (env : Surroundings) : Node → Prop where
  | branch {id : String} {e : Data} {yes no : List Node} (taken : Bool)
      (decided : env.truth (localized e env.settings.locale) = .ok taken)
      (empty : (if taken then yes else no) = []) : Passed env (.decision id e yes no)
  | whileLoop {id : String} {e : Data} {actions : List Node}
      (skipped : env.truth (localized e env.settings.locale) = .ok false) :
      Passed env (.whileLoop id e actions)

/-- A node at which a walk halts, with the status that it halts in. -/
inductive Node.Awaits : Node → Status → Prop where
  | interaction {id : String} {prompt : Data} {fields : List Field} {ended : Bool} :
      Awaits (.interaction id prompt fields ended) .awaitingInput
  | call {id : String} {name response : Data} {ended : Bool} {stored : String}
      (named : variableName name response = .ok stored) :
      Awaits (.call id name response ended) .awaitingCall

/-- A loop whose condition still holds does not let its frame go. -/
def Frame.Released (env : Surroundings) (f : Frame) : Prop :=
  ∀ owner e, f.kind = .loop owner e → env.truth e = .ok false

inductive Walk.Moves (env : Surroundings) (w : Walk) : Walk → Prop where
  | opens {n : Node} {block : List Node} {kind : FrameKind} {log : List String}
      (here : w.top.frame.node? = some n) (opened : n.Opens env block kind) :
      Moves env w ⟨⟨⟨block, 0, kind⟩, 0⟩, w.top :: w.below, log⟩
  | passes {n : Node} {log : List String} (here : w.top.frame.node? = some n)
      (passed : n.Passed env) :
      Moves env w ⟨⟨w.top.frame.advance, w.top.passes⟩, w.below, log⟩
  | again {owner : String} {e : Data} {log : List String} (spent : w.top.frame.node? = none)
      (kind : w.top.frame.kind = .loop owner e) (holds : env.truth e = .ok true)
      (allowed : env.settings.maxLoopIterations.allows (w.top.passes + 1) = true) :
      Moves env w ⟨⟨{ w.top.frame with index := 0 }, w.top.passes + 1⟩, w.below, log⟩
  | leaves {parent : Active} {rest : List Active} {log : List String}
      (spent : w.top.frame.node? = none) (released : w.top.frame.Released env)
      (below : w.below = parent :: rest) :
      Moves env w ⟨⟨parent.frame.advance, parent.passes⟩, rest, log⟩

inductive Walk.Stops (env : Surroundings) (w : Walk) : Stop → Prop where
  | awaits {n : Node} {status : Status} (here : w.top.frame.node? = some n)
      (awaits : n.Awaits status) : Stops env w (.halted status)
  | completed (spent : w.top.frame.node? = none) (released : w.top.frame.Released env)
      (alone : w.below = []) : Stops env w (.halted .completed)
  | unreachable {id type : String} {definition : Entries Unit}
      (here : w.top.frame.node? = some (.unknown id type definition)) :
      Stops env w (.failed (.unreachable type id))
  | repeated {owner : String} {e : Data} (spent : w.top.frame.node? = none)
      (kind : w.top.frame.kind = .loop owner e) (holds : env.truth e = .ok true)
      (refused : env.settings.maxLoopIterations.allows (w.top.passes + 1) = false) :
      Stops env w (.failed (.tooManyRepeats owner env.settings.maxLoopIterations.shown))
  | decisionFault {id : String} {e : Data} {yes no : List Node} {f : Fault}
      (here : w.top.frame.node? = some (.decision id e yes no))
      (fault : env.truth (localized e env.settings.locale) = .error f) :
      Stops env w (.escaped .running (.fault f))
  | decisionUnlogged {id : String} {e : Data} {yes no : List Node} {f : Fault}
      (here : w.top.frame.node? = some (.decision id e yes no))
      (fault : Walk.decisionLine env.context (localized e env.settings.locale)
        (Walk.value env (localized e env.settings.locale)) = .error f) :
      Stops env w (.escaped .running (.fault f))
  | whileFault {id : String} {e : Data} {actions : List Node} {f : Fault}
      (here : w.top.frame.node? = some (.whileLoop id e actions))
      (fault : env.truth (localized e env.settings.locale) = .error f) :
      Stops env w (.escaped .running (.fault f))
  | whileUnlogged {id : String} {e : Data} {actions : List Node} {f : Fault}
      (here : w.top.frame.node? = some (.whileLoop id e actions))
      (fault : (localized e env.settings.locale).listed = .error f) :
      Stops env w (.escaped .running (.fault f))
  | repeatFault {owner : String} {e : Data} {f : Fault} (spent : w.top.frame.node? = none)
      (kind : w.top.frame.kind = .loop owner e) (fault : env.truth e = .error f) :
      Stops env w (.escaped .running (.fault f))
  | nameless {id : String} {name response : Data} {ended : Bool} {e : ShapeError}
      (here : w.top.frame.node? = some (.call id name response ended))
      (unnamed : variableName name response = .error e) :
      Stops env w (.escaped .awaitingCall (.shape e))

/-- What the transition function may yield: a move, or a stop in place. -/
def Walk.Steps (env : Surroundings) (w : Walk) : Step → Prop
  | .go w' => w.Moves env w'
  | .stop w' s => w'.top = w.top ∧ w'.below = w.below ∧ w.Stops env s

namespace Frame

variable {f : Frame} {n : Node}

theorem drop_of_here (here : f.node? = some n) :
    f.nodes.drop f.index = n :: f.nodes.drop (f.index + 1) := by
  obtain ⟨less, there⟩ := List.getElem?_eq_some_iff.mp here
  rw [List.drop_eq_getElem_cons less, there]

theorem drop_of_spent (spent : f.node? = none) : f.nodes.drop f.index = [] :=
  List.drop_eq_nil_of_le (List.getElem?_eq_none_iff.mp spent)

end Frame

namespace Walk

variable {env : Surroundings} {w w' : Walk} {s : Stop}

/-- Acting on what may have failed is a step if each outcome is. -/
theorem steps_unlessFault {α : Type} {r : Except Fault α} {f : α → Step}
    (failed : ∀ e, r = .error e → w.Stops env (.escaped .running (.fault e)))
    (steps : ∀ a, r = .ok a → w.Steps env (f a)) : w.Steps env (w.unlessFault r f) := by
  cases r with
  | error e => exact ⟨rfl, rfl, failed e rfl⟩
  | ok a => exact steps a rfl

theorem atNode_steps {n : Node} (here : w.top.frame.node? = some n) :
    w.Steps env (w.atNode env n) := by
  cases n with
  | interaction id prompt fields ended => exact ⟨rfl, rfl, .awaits here .interaction⟩
  | call id name response ended =>
    simp only [atNode]
    split
    · rename_i v named
      exact ⟨rfl, rfl, .awaits here (.call named)⟩
    · rename_i e unnamed
      exact ⟨rfl, rfl, .nameless here unnamed⟩
  | decision id e yes no =>
    refine steps_unlessFault (fun f => .decisionFault here) fun taken decided => ?_
    refine steps_unlessFault (fun f => .decisionUnlogged here) fun line _ => ?_
    by_cases empty : (if taken then yes else no) = []
    · rw [if_pos (List.isEmpty_iff.mpr empty)]
      exact Moves.passes here (.branch taken decided empty)
    · rw [if_neg (fun none => empty (List.isEmpty_iff.mp none))]
      exact Moves.opens here (.branch taken decided empty)
  | whileLoop id e actions =>
    refine steps_unlessFault (fun f => .whileUnlogged here) fun listed _ => ?_
    refine steps_unlessFault (fun f => .whileFault here) fun taken decided => ?_
    cases taken with
    | true => exact .opens here (.whileLoop decided)
    | false => exact .passes here (.whileLoop decided)
  | doWhile id e actions => exact .opens here .doWhile
  | unknown id type definition => exact ⟨rfl, rfl, .unreachable here⟩

theorem leave_steps (log : List String) (spent : w.top.frame.node? = none)
    (released : w.top.frame.Released env) :
    w.Steps env (leave env { w with log := log }) := by
  simp only [leave]
  split
  · rename_i parent rest below
    exact .leaves spent released below
  · rename_i alone
    exact ⟨rfl, rfl, .completed spent released alone⟩

theorem atEnd_steps (spent : w.top.frame.node? = none) : w.Steps env (w.atEnd env) := by
  simp only [atEnd]
  split
  · rename_i owner e kind
    refine steps_unlessFault (fun f => .repeatFault spent kind) fun repeated holds => ?_
    cases repeated with
    | true =>
      simp only [↓reduceIte, again]
      split
      · rename_i allowed
        exact .again spent kind holds allowed
      · rename_i refused
        exact ⟨rfl, rfl, .repeated spent kind holds (Bool.not_eq_true _ ▸ refused)⟩
    | false =>
      have released : w.top.frame.Released env := by
        intro owner' e' kind'
        cases kind.symm.trans kind'
        exact holds
      exact leave_steps _ spent released
  · rename_i plain
    have released : w.top.frame.Released env := fun owner e kind => absurd kind (plain owner e)
    exact leave_steps w.log spent released

theorem step_steps (env : Surroundings) (w : Walk) : w.Steps env (w.step env) := by
  simp only [step]
  split
  · rename_i n here
    exact atNode_steps here
  · rename_i spent
    exact atEnd_steps spent

theorem moves_of_step (h : w.step env = .go w') : w.Moves env w' := by
  have steps := step_steps env w
  rwa [h] at steps

theorem stops_of_step (h : w.step env = .stop w' s) :
    w'.top = w.top ∧ w'.below = w.below ∧ w.Stops env s := by
  have steps := step_steps env w
  rwa [h] at steps

end Walk

end Walkthrough
