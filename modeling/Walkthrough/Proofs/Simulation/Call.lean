import Walkthrough.Proofs.Walk.Run
import Walkthrough.Simulation.Basic

/-! Calls that drive a simulation, and what each of them can come to. A call is refused and changes
nothing, or it raises an error before anything has changed, or it departs from a new place and
walks on from there. -/
namespace Walkthrough

inductive Answer where
  | values (values : Data)
  | response (given payload : Data)

/-- What a caller may ask of a simulation. A reset to null goes on with the same workflow. -/
inductive Call where
  | answer (a : Answer)
  | goBack
  | reset (now : Instant) (document : Data)

/-- The workflow that a document stands for when a simulation is created. -/
def Denotes (document : Data) (nodes : List Node) : Prop :=
  (document = .null ∧ nodes = []) ∨ readWorkflow document = .ok nodes

/-- A refusal is told by an error that does not end the simulation. -/
def Reply.refused (r : Reply) : Bool := r.error.any fun e => !e.kind.fatal

namespace Simulation

def take (s : Simulation) : Answer → Outcome
  | .values values => s.submit values
  | .response given payload => s.respond given payload

def perform (s : Simulation) : Call → Except DocumentError Outcome
  | .answer a => .ok (s.take a)
  | .goBack => .ok s.goBack
  | .reset now document => s.resetTo now document

/-- The states that calls lead to, all of which have returned. -/
inductive Reached (settings : Settings) : Simulation → Prop where
  | created {now : Instant} {document : Data} {s : Simulation} {r : Reply}
      (h : ofDocument settings now document = .ok (some (s, .ok r))) : Reached settings s
  | called {s s' : Simulation} {c : Call} {r : Reply} (reached : Reached settings s)
      (h : s.perform c = .ok (some (s', .ok r))) : Reached settings s'

def accept? (s : Simulation) (a : Answer) : Option Simulation :=
  match s.take a with
  | some (s', .ok r) => if r.refused then none else some s'
  | _ => none

def feed (s : Simulation) : List Answer → Option Simulation
  | [] => some s
  | a :: rest => (s.accept? a).bind fun s' => s'.feed rest

def begin? (settings : Settings) (now : Instant) (document : Data) : Option Simulation :=
  match ofDocument settings now document with
  | .ok (some (s, .ok _)) => some s
  | _ => none

def surroundings (s : Simulation) : Surroundings := ⟨s.settings, s.context⟩

/-- The place behind the node that waited, with the state before it saved. -/
def past (s : Simulation) (line : String) (context : Context) : Simulation :=
  { s.note line with
    history := ⟨s.stack, s.context⟩ :: s.history
    context := context
    stack := s.stack.advance }

def fresh (settings : Settings) (now : Instant) (nodes : List Node) (log : List String) :
    Simulation :=
  ⟨settings, nodes, .ofWorkflow nodes, .empty now, [], .running, none, log⟩

/-- The place from which a call that is accepted walks on. -/
inductive Departs (s : Simulation) : Call → Simulation → Prop where
  | values {id : String} {prompt values : Data} {fields : List Field} {ended : Bool}
      {entries : Entries Unit} {line : String}
      (waits : s.current = .node (.interaction id prompt fields ended))
      (form : values.toEntries = .ok entries) (complete : missingFields fields entries = [])
      (named : (valueNames? entries).isSome) :
      Departs s (.answer (.values values)) (s.past line (s.context.withReplies entries))
  | response {id stored : String} {name response given payload : Data} {ended : Bool}
      {line : String} (waits : s.current = .node (.call id name response ended))
      (named : responseName given name response = .ok stored)
      (structured : payload.isStructured = true) :
      Departs s (.answer (.response given payload))
        (s.past line (s.context.withResponse stored payload))
  | back {snapshot : Snapshot} {rest : List Snapshot} {line : String}
      (saved : s.history = snapshot :: rest) :
      Departs s .goBack ({ s with
        stack := snapshot.stack
        context := snapshot.context
        history := rest
        status := .running
        error := none }.note line)
  | reset {now : Instant} {document : Data} {nodes : List Node} {log : List String}
      (read : (document = .null ∧ nodes = s.workflow) ∨ readWorkflow document = .ok nodes) :
      Departs s (.reset now document) (fresh s.settings now nodes log)

/-- An answer that leaves the simulation by an error instead of being taken or refused. -/
inductive Malformed (s : Simulation) : Answer → Escape → Prop where
  | values {id : String} {prompt values : Data} {fields : List Field} {ended : Bool}
      {e : ShapeError} (waits : s.current = .node (.interaction id prompt fields ended))
      (form : values.toEntries = .error e) : Malformed s (.values values) (.shape e)
  | names {id : String} {prompt values : Data} {fields : List Field} {ended : Bool}
      {entries : Entries Unit} (waits : s.current = .node (.interaction id prompt fields ended))
      (form : values.toEntries = .ok entries) (unnamed : valueNames? entries = none) :
      Malformed s (.values values) (.shape .wrongKind)
  | response {id : String} {name response given payload : Data} {ended : Bool} {e : Escape}
      (waits : s.current = .node (.call id name response ended))
      (unnamed : responseName given name response = .error e) :
      Malformed s (.response given payload) e

inductive Performs (s : Simulation) (c : Call) : Outcome → Prop where
  | refused {p : Problem} (mild : p.kind.fatal = false) : Performs s c (s.reject p)
  | raised {a : Answer} {e : Escape} (asked : c = .answer a) (malformed : s.Malformed a e) :
      Performs s c (some (s, .error e))
  | departed {d : Simulation} (departs : s.Departs c d) : Performs s c d.walk

variable {s s' : Simulation} {o : Outcome} {c : Call}

theorem refusal_mild (s : Simulation) (wanted : String) :
    (s.refusal wanted).kind.fatal = false := by
  simp only [refusal]
  split <;> rfl

theorem submit_performs (s : Simulation) (values : Data) :
    s.Performs (.answer (.values values)) (s.submit values) := by
  simp only [submit]
  split
  · rename_i id prompt fields ended waits
    split
    · rename_i e form
      exact .raised rfl (.values waits form)
    · rename_i entries form
      split
      · rename_i complete
        split
        · rename_i unnamed
          exact .raised rfl (.names waits form unnamed)
        · rename_i names named
          exact .departed (.values waits form complete (by simp [named]))
      · exact .refused rfl
  · exact .refused (refusal_mild s _)

theorem respond_performs (s : Simulation) (given payload : Data) :
    s.Performs (.answer (.response given payload)) (s.respond given payload) := by
  simp only [respond]
  split
  · rename_i id name response ended waits
    split
    · rename_i e unnamed
      exact .raised rfl (.response waits unnamed)
    · rename_i stored named
      split
      · rename_i structured
        exact .departed (.response waits named structured)
      · exact .refused rfl
  · exact .refused (refusal_mild s _)

theorem goBack_performs (s : Simulation) : s.Performs .goBack s.goBack := by
  simp only [goBack]
  split
  · exact .refused rfl
  · rename_i snapshot rest saved
    exact .departed (.back saved)

theorem reset_eq (s : Simulation) (now : Instant) (workflow : Option (List Node)) :
    ∃ log, s.reset now workflow =
      (fresh s.settings now (workflow.getD s.workflow) log).walk :=
  ⟨_, rfl⟩

theorem resetTo_performs {now : Instant} {document : Data}
    (h : s.resetTo now document = .ok o) : s.Performs (.reset now document) o := by
  simp only [resetTo] at h
  split at h
  · obtain ⟨log, begun⟩ := reset_eq s now none
    rw [begun] at h
    cases h
    exact .departed (.reset (.inl ⟨rfl, rfl⟩))
  · cases read : readWorkflow document with
    | error e => simp [read, Except.map] at h
    | ok nodes =>
      obtain ⟨log, begun⟩ := reset_eq s now (some nodes)
      simp only [read, Except.map, Except.ok.injEq, begun] at h
      subst h
      exact .departed (.reset (.inr read))

theorem perform_performs (h : s.perform c = .ok o) : s.Performs c o := by
  cases c with
  | answer a =>
    cases h
    cases a with
    | values values => exact submit_performs s values
    | response given payload => exact respond_performs s given payload
  | goBack =>
    cases h
    exact goBack_performs s
  | reset now document => exact resetTo_performs h

theorem submit_eq_walk {id : String} {prompt values : Data} {fields : List Field} {ended : Bool}
    {entries : Entries Unit} (waits : s.current = .node (.interaction id prompt fields ended))
    (form : values.toEntries = .ok entries) (complete : missingFields fields entries = [])
    (named : (valueNames? entries).isSome) :
    ∃ line, s.submit values = (s.past line (s.context.withReplies entries)).walk := by
  obtain ⟨names, named⟩ := Option.isSome_iff_exists.mp named
  simp only [submit, waits, form, complete, named]
  exact ⟨_, rfl⟩

theorem respond_eq_walk {id stored : String} {name response given payload : Data} {ended : Bool}
    (waits : s.current = .node (.call id name response ended))
    (named : responseName given name response = .ok stored)
    (structured : payload.isStructured = true) :
    ∃ line, s.respond given payload =
      (s.past line (s.context.withResponse stored payload)).walk := by
  simp only [respond, waits, named, structured]
  exact ⟨_, rfl⟩

theorem resetTo_eq_walk {now : Instant} {document : Data} {nodes : List Node}
    (read : (document = .null ∧ nodes = s.workflow) ∨ readWorkflow document = .ok nodes) :
    ∃ log, s.resetTo now document = .ok (fresh s.settings now nodes log).walk := by
  rcases read with ⟨rfl, rfl⟩ | read
  · exact ⟨_, rfl⟩
  · simp only [resetTo]
    split
    · cases read
    · simp only [read, Except.map]
      exact ⟨_, rfl⟩

theorem Departs.settings_eq {d : Simulation} (departs : s.Departs c d) :
    d.settings = s.settings := by
  cases departs <;> rfl

theorem ofDocument_eq {settings : Settings} {now : Instant} {document : Data}
    (h : ofDocument settings now document = .ok o) :
    ∃ nodes log, Denotes document nodes ∧ o = (fresh settings now nodes log).walk := by
  simp only [ofDocument] at h
  split at h
  · cases h
    exact ⟨[], _, .inl ⟨rfl, rfl⟩, rfl⟩
  · cases read : readWorkflow document with
    | error e => simp [read, Except.map] at h
    | ok nodes =>
      simp only [read, Except.map, Except.ok.injEq] at h
      exact ⟨nodes, _, .inr read, h.symm⟩

theorem ofDocument_of_denotes (settings : Settings) (now : Instant) {document : Data}
    {nodes : List Node} (denotes : Denotes document nodes) :
    ∃ log, ofDocument settings now document = .ok (fresh settings now nodes log).walk := by
  rcases denotes with ⟨rfl, rfl⟩ | read
  · exact ⟨_, rfl⟩
  · simp only [ofDocument]
    split
    · cases read
    · simp only [read, Except.map]
      exact ⟨_, rfl⟩

theorem accept?_eq_some {a : Answer} (h : s.accept? a = some s') :
    ∃ r, s.take a = some (s', .ok r) ∧ r.refused = false := by
  simp only [accept?] at h
  split at h
  · rename_i u r taken
    split at h
    · cases h
    · rename_i accepted
      cases h
      exact ⟨r, taken, by simpa using accepted⟩
  · cases h

theorem begin?_eq_some {settings : Settings} {now : Instant} {document : Data}
    (h : begin? settings now document = some s) :
    ∃ r, ofDocument settings now document = .ok (some (s, .ok r)) := by
  simp only [begin?] at h
  split at h
  · rename_i u r begun
    cases h
    exact ⟨r, begun⟩
  · cases h

theorem reached_of_feed {settings : Settings} {answers : List Answer} (reached : Reached settings s)
    (h : s.feed answers = some s') : Reached settings s' := by
  induction answers generalizing s with
  | nil =>
    cases h
    exact reached
  | cons a rest ih =>
    obtain ⟨u, accepted, fed⟩ := Option.bind_eq_some_iff.mp h
    obtain ⟨r, taken, -⟩ := accept?_eq_some accepted
    exact ih (.called (c := .answer a) reached (congrArg Except.ok taken)) fed

theorem reached_of_begin? {settings : Settings} {now : Instant} {document : Data}
    (h : begin? settings now document = some s) : Reached settings s := by
  obtain ⟨r, begun⟩ := begin?_eq_some h
  exact .created begun

end Simulation

end Walkthrough
