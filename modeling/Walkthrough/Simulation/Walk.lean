import Walkthrough.Expression.Evaluator
import Walkthrough.Settings
import Walkthrough.Simulation.Context
import Walkthrough.Simulation.Problem
import Walkthrough.Workflow.Localized
import Walkthrough.Workflow.Node

/-! The walk from one halt to the next. A stack of frames marks the place in the workflow: each
frame is a node list and a position in it, the frames below stand at the nodes that own the ones
above. A walk goes step by step until a node waits for an answer, the workflow ends, or something
fails. The context does not change on the way. -/
namespace Walkthrough

inductive FrameKind where
  | root
  | branch (owner : String)
  | loop (owner : String) (expression : Data)

def FrameKind.name : FrameKind → String
  | root => "root"
  | branch _ => "decision_block"
  | loop .. => "loop_block"

def FrameKind.owner? : FrameKind → Option String
  | root => none
  | branch owner => some owner
  | loop owner _ => some owner

/-- The expression of a loop; other frames have none. -/
def FrameKind.expression : FrameKind → Data
  | loop _ expression => expression
  | _ => .null

structure Frame where
  nodes : List Node
  index : Nat
  kind : FrameKind

def Frame.node? (f : Frame) : Option Node := f.nodes[f.index]?
def Frame.advance (f : Frame) : Frame := { f with index := f.index + 1 }

/-- Frames from the top down; there is always one. -/
structure Stack where
  top : Frame
  below : List Frame

def Stack.ofWorkflow (nodes : List Node) : Stack := ⟨⟨nodes, 0, .root⟩, []⟩
def Stack.frames (s : Stack) : List Frame := s.below.reverse ++ [s.top]
def Stack.advance (s : Stack) : Stack := { s with top := s.top.advance }

/-- The step that a failure is blamed on: the current node, or else the frame's owner. -/
def Stack.blamed (s : Stack) : Option String :=
  match s.top.node? with
  | some n => some n.id
  | none => s.top.kind.owner?

/-- A frame with the number of times it has been repeated on this walk. -/
structure Active where
  frame : Frame
  passes : Nat

structure Walk where
  top : Active
  below : List Active
  log : List String

/-- Adds a line to a log that may keep only its last lines. -/
def logged (limit : Option Nat) (log : List String) (line : String) : List String :=
  let log := log ++ [line]
  match limit with
  | some most => log.drop (log.length - most)
  | none => log

namespace Walk

def start (stack : Stack) (log : List String) : Walk :=
  ⟨⟨stack.top, 0⟩, stack.below.map fun f => ⟨f, 0⟩, log⟩

def stack (w : Walk) : Stack := ⟨w.top.frame, w.below.map Active.frame⟩

end Walk

/-- How a walk stops: at a node that waits, at the end, by a problem, or by an error that leaves the
walk in the given state. -/
inductive Stop where
  | halted (status : Status)
  | failed (p : Problem)
  | escaped (status : Status) (e : Escape)

inductive Step where
  | go (w : Walk)
  | stop (w : Walk) (s : Stop)

/-- What a walk depends on. -/
structure Surroundings where
  settings : Settings
  context : Context

namespace Walk

def note (env : Surroundings) (w : Walk) (line : String) : Walk :=
  { w with log := logged env.settings.debugLogLimit w.log line }

def push (w : Walk) (nodes : List Node) (kind : FrameKind) : Walk :=
  { w with top := ⟨⟨nodes, 0, kind⟩, 0⟩, below := w.top :: w.below }

def advance (w : Walk) : Walk := { w with top := { w.top with frame := w.top.frame.advance } }

/-- Leaves an exhausted frame: the owner below is done, or the workflow is. -/
def leave (env : Surroundings) (w : Walk) : Step :=
  match w.below with
  | parent :: rest => .go { w with top := { parent with frame := parent.frame.advance }, below := rest }
  | [] => .stop (w.note env "[End] Workflow completed") (.halted .completed)

/-- Acts on what has been computed, unless computing it failed. -/
def unlessFault {α : Type} (w : Walk) (r : Except Fault α) (f : α → Step) : Step :=
  match r with
  | .ok a => f a
  | .error e => .stop w (.escaped .running (.fault e))

def value (env : Surroundings) (expression : Data) : Data :=
  Expression.evaluate expression env.context.toData

def localExpression (env : Surroundings) (expression : Data) : Data :=
  localized expression env.settings.locale

/-- Begins another pass of a loop, if the ceiling allows it. -/
def again (env : Surroundings) (w : Walk) (owner : String) : Step :=
  let limit := env.settings.maxLoopIterations
  if limit.allows (w.top.passes + 1) then
    .go ({ w with top := ⟨{ w.top.frame with index := 0 }, w.top.passes + 1⟩ }.note env
      s!"[Loop] {owner} | Repeat")
  else .stop w (.failed (.tooManyRepeats owner limit.shown))

/-- The step at the end of a frame. -/
def atEnd (env : Surroundings) (w : Walk) : Step :=
  match w.top.frame.kind with
  | .loop owner expression =>
    w.unlessFault (value env expression).truth fun repeated =>
      if repeated then w.again env owner else (w.note env s!"[Loop] {owner} | Exit").leave env
  | _ => w.leave env

def responseNames (c : Context) : Except Fault String :=
  (c.responses.mapM fun entry => (Value.atom (ι := Unit) entry.1).shown).map (", ".intercalate ·)

/-- The line that the log keeps of a decision. -/
def decisionLine (c : Context) (expression result : Data) : Except Fault String := do
  let expression ← expression.listed
  let result ← result.shown
  let names ← responseNames c
  return "[Decision] Expr: " ++ expression ++ " | Result: " ++ result ++ " | Keys: " ++ names

/-- The step at a node. -/
def atNode (env : Surroundings) (w : Walk) (n : Node) : Step :=
  match n with
  | .decision id expression yes no =>
    let expression := localExpression env expression
    let result := value env expression
    w.unlessFault result.truth fun taken =>
      w.unlessFault (decisionLine env.context expression result) fun line =>
        let w := w.note env line
        let block := if taken then yes else no
        if block.isEmpty then .go w.advance else .go (w.push block (.branch id))
  | .doWhile id expression actions =>
    .go ((w.note env s!"[DoWhile] {id} | Enter").push actions
      (.loop id (localExpression env expression)))
  | .whileLoop id expression actions =>
    let expression := localExpression env expression
    w.unlessFault expression.listed fun listed =>
      w.unlessFault (value env expression).truth fun taken =>
        let w := w.note env ("[While] Expr: " ++ listed ++ " | Enter: " ++ (Scalar.bool taken).listing)
        if taken then .go (w.push actions (.loop id expression)) else .go w.advance
  | .interaction id .. =>
    .stop (w.note env s!"[Halt] {id} | Awaiting input") (.halted .awaitingInput)
  | .call id name response _ =>
    match variableName name response with
    | .ok variable_ =>
      .stop (w.note env s!"[Halt] {id} | Awaiting response for api_responses.{variable_}")
        (.halted .awaitingCall)
    | .error e => .stop w (.escaped .awaitingCall (.shape e))
  | .unknown id type _ => .stop w (.failed (.unreachable type id))

/-- One transition. -/
def step (env : Surroundings) (w : Walk) : Step :=
  match w.top.frame.node? with
  | some n => w.atNode env n
  | none => w.atEnd env

/-- At most so many transitions; needing one more is a problem. -/
def runCapped (env : Surroundings) : Nat → Walk → Walk × Stop
  | 0, w => (w, .failed (.tooManySteps env.settings.maxAutoSteps.shown))
  | n + 1, w =>
    match w.step env with
    | .go w => runCapped env n w
    | .stop w s => (w, s)

/-- The stop reached within so many transitions, if there is one. -/
def runWithin (env : Surroundings) : Nat → Walk → Option (Walk × Stop)
  | 0, _ => none
  | n + 1, w =>
    match w.step env with
    | .go w => runWithin env n w
    | .stop w s => some (w, s)

end Walk

mutual

/-- A bound on the transitions that a node takes when every loop is repeated at most `m` times. -/
def Node.work (m : Nat) : Node → Nat
  | .decision _ _ yes no => 1 + (Node.workAll m yes + Node.workAll m no)
  | .whileLoop _ _ actions => 1 + (m + 1) * Node.workAll m actions
  | .doWhile _ _ actions => 1 + (m + 1) * Node.workAll m actions
  | _ => 1

def Node.workAll (m : Nat) : List Node → Nat
  | [] => 1
  | n :: rest => n.work m + Node.workAll m rest

end

/-- A walk repeats a loop at most so often: without a ceiling a second repetition would see the
same context as the first and go on for ever. -/
def repeats (settings : Settings) : Nat := max 1 (settings.maxLoopIterations.count.getD 1)

/-- Transitions within which a walk stops, if it ever does. -/
def Walk.bound (settings : Settings) (w : Walk) : Nat :=
  let m := repeats settings
  (w.top :: w.below).foldr (fun a most => (m + 2) * Node.workAll m a.frame.nodes + most) 0 + 1

/-- The walk to the next halt. There is none when the walk would go on for ever. -/
def Walk.run (env : Surroundings) (w : Walk) : Option (Walk × Stop) :=
  match env.settings.maxAutoSteps.count with
  | some most => some (w.runCapped env most)
  | none => w.runWithin env (w.bound env.settings)

end Walkthrough
