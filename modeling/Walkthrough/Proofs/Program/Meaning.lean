import Walkthrough.Proofs.Simulation.Call

/-! Workflows as structured programs. The reading knows nothing of frames and cursors: lists run
from left to right, a decision chooses, a loop tests and repeats, an interaction or a call takes the
next answer. What a program does with given answers is fixed. -/
namespace Walkthrough

inductive Program where
  | skip
  | seq (p q : Program)
  | choose (condition : Data) (yes no : Program)
  | loop (condition : Data) (body : Program)
  | ask (n : Node)
  | abort (n : Node)

mutual

def Node.program (locale : Scalar) : Node → Program
  | .decision _ e yes no =>
    .choose (localized e locale) (Node.programAll locale yes) (Node.programAll locale no)
  | .whileLoop _ e actions => .loop (localized e locale) (Node.programAll locale actions)
  | .doWhile _ e actions =>
    .seq (Node.programAll locale actions)
      (.loop (localized e locale) (Node.programAll locale actions))
  | .unknown id type definition => .abort (.unknown id type definition)
  | .interaction id prompt fields ended => .ask (.interaction id prompt fields ended)
  | .call id name response ended => .ask (.call id name response ended)

def Node.programAll (locale : Scalar) : List Node → Program
  | [] => .skip
  | n :: rest => .seq (n.program locale) (Node.programAll locale rest)

end

/-- What a program comes to: it has ended, with the answers it has not taken, it is about to take an
answer at a node, or it has aborted at one. -/
inductive Finish where
  | ended (c : Context) (unused : List Answer)
  | awaits (n : Node) (c : Context)
  | aborted (n : Node) (c : Context) (unused : List Answer)

def Finish.Broken (f : Finish) : Prop := ∀ c unused, f ≠ .ended c unused

theorem Finish.broken_awaits (n : Node) (c : Context) : (Finish.awaits n c).Broken := by
  intro d unused same
  cases same

theorem Finish.broken_aborted (n : Node) (c : Context) (unused : List Answer) :
    (Finish.aborted n c unused).Broken := by
  intro d rest same
  cases same

def Context.truth (c : Context) (condition : Data) : Except Fault Bool :=
  (Expression.evaluate condition c.toData).truth

def Context.withAnswer (c : Context) : Node → Answer → Option Context
  | .interaction .., .values values => values.toEntries.toOption.map c.withReplies
  | .call _ name response _, .response given payload =>
    (Simulation.responseName given name response).toOption.map fun stored =>
      c.withResponse stored payload
  | _, _ => none

/-- The meaning of programs, on a context and the answers to come. -/
inductive Program.Runs : Program → Context → List Answer → Finish → Prop where
  | skip {c : Context} {answers : List Answer} : Runs .skip c answers (.ended c answers)
  | seq {p q : Program} {c d : Context} {answers unused : List Answer} {f : Finish}
      (first : Runs p c answers (.ended d unused)) (second : Runs q d unused f) :
      Runs (.seq p q) c answers f
  | broken {p q : Program} {c : Context} {answers : List Answer} {f : Finish}
      (first : Runs p c answers f) (broken : f.Broken) : Runs (.seq p q) c answers f
  | choose {e : Data} {p q : Program} {c : Context} {answers : List Answer} {f : Finish}
      (taken : Bool) (decided : c.truth e = .ok taken)
      (branch : Runs (if taken then p else q) c answers f) : Runs (.choose e p q) c answers f
  | repeats {e : Data} {p : Program} {c : Context} {answers : List Answer} {f : Finish}
      (holds : c.truth e = .ok true) (pass : Runs (.seq p (.loop e p)) c answers f) :
      Runs (.loop e p) c answers f
  | leaves {e : Data} {p : Program} {c : Context} {answers : List Answer}
      (fails : c.truth e = .ok false) : Runs (.loop e p) c answers (.ended c answers)
  | awaits {n : Node} {c : Context} : Runs (.ask n) c [] (.awaits n c)
  | answered {n : Node} {c d : Context} {a : Answer} {rest : List Answer}
      (added : c.withAnswer n a = some d) : Runs (.ask n) c (a :: rest) (.ended d rest)
  | aborts {n : Node} {c : Context} {answers : List Answer} :
      Runs (.abort n) c answers (.aborted n c answers)

namespace Program

variable {p p' q r : Program} {c : Context} {answers : List Answer} {f g : Finish}

theorem Runs.deterministic (left : p.Runs c answers f) (right : p.Runs c answers g) : f = g := by
  -- on the derivation, for a loop runs a program that is no part of it
  induction left generalizing g with
  | skip =>
    cases right
    rfl
  | seq _ _ first second =>
    cases right with
    | seq first' second' =>
      cases first first'
      exact second second'
    | broken first' broken => exact absurd (first first').symm (broken _ _)
  | broken _ broken first =>
    cases right with
    | seq first' _ => exact absurd (first first') (broken _ _)
    | broken first' _ => exact first first'
  | choose taken decided _ branch =>
    cases right with
    | choose taken' decided' branch' =>
      cases decided.symm.trans decided'
      exact branch branch'
  | repeats holds _ pass =>
    cases right with
    | repeats _ pass' => exact pass pass'
    | leaves fails => cases holds.symm.trans fails
  | leaves fails =>
    cases right with
    | repeats holds _ => cases fails.symm.trans holds
    | leaves _ => rfl
  | awaits =>
    cases right
    rfl
  | answered added =>
    cases right with
    | answered added' =>
      cases added.symm.trans added'
      rfl
  | aborts =>
    cases right
    rfl

/-- A program in front may be replaced by one that does at least as much. -/
theorem Runs.replace (more : ∀ {f}, p.Runs c answers f → p'.Runs c answers f)
    (h : (p.seq q).Runs c answers f) : (p'.seq q).Runs c answers f := by
  cases h with
  | seq first second => exact .seq (more first) second
  | broken first broken => exact .broken (more first) broken

theorem Runs.assoc (h : (p.seq (q.seq r)).Runs c answers f) :
    ((p.seq q).seq r).Runs c answers f := by
  cases h with
  | seq first second =>
    cases second with
    | seq second third => exact .seq (.seq first second) third
    | broken second broken => exact .broken (.seq first second) broken
  | broken first broken => exact .broken (.broken first broken) broken

end Program

end Walkthrough
