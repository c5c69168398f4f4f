import Walkthrough.Proofs.Simulation.Log
import Walkthrough.Proofs.Simulation.Place
import Walkthrough.Proofs.Value.Entries
import Walkthrough.Proofs.Walk.Snag

/-! Which calls return. With a ceiling on transitions every call has an outcome; it is an answer
unless the walk that the call sets off comes to a snag. -/
namespace Walkthrough

/-- A call as callers are to make it: values have text for names, a response is given under text or
under nothing, a document can be read. -/
inductive Call.Proper : Call → Prop where
  | values {entries : Entries Unit} (named : ∀ entry ∈ entries, ∃ t, entry.1 = .text t) :
      Proper (.answer (.values (.ofEntries entries)))
  | response {given payload : Data} (named : given = .null ∨ ∃ t, given = .text t) :
      Proper (.answer (.response given payload))
  | goBack : Proper .goBack
  | reset {now : Instant} {document : Data}
      (read : document = .null ∨ ∃ nodes, readWorkflow document = .ok nodes) :
      Proper (.reset now document)

namespace Simulation

variable {settings : Settings} {s s' d : Simulation} {c : Call} {a : Answer} {o : Outcome}
  {e : Escape} {most : Nat}

theorem Departs.perform_eq (departs : s.Departs c d) :
    ∃ d' : Simulation, s.perform c = .ok d'.walk ∧ d'.unlogged = d.unlogged := by
  cases departs with
  | values waits form complete named =>
    obtain ⟨line, walked⟩ := submit_eq_walk waits form complete named
    exact ⟨_, congrArg Except.ok walked, rfl⟩
  | response waits named structured =>
    obtain ⟨line, walked⟩ := respond_eq_walk waits named structured
    exact ⟨_, congrArg Except.ok walked, rfl⟩
  | @back snapshot rest line saved =>
    refine ⟨({ s with
      stack := snapshot.stack
      context := snapshot.context
      history := rest
      status := .running
      error := none } : Simulation).note s!"[Back] History depth: {rest.length}", ?_, rfl⟩
    simp only [perform, goBack, saved]
  | reset read =>
    obtain ⟨log, walked⟩ := resetTo_eq_walk (s := s) read
    exact ⟨_, walked, rfl⟩

theorem valueNames?_isSome {entries : Entries Unit}
    (named : ∀ entry ∈ entries, ∃ t, entry.1 = .text t) : (valueNames? entries).isSome := by
  induction entries with
  | nil => rfl
  | cons entry rest ih =>
    obtain ⟨t, text⟩ := named entry (List.mem_cons_self ..)
    obtain ⟨names, others⟩ :=
      Option.isSome_iff_exists.mp (ih fun e member => named e (List.mem_cons_of_mem _ member))
    simp only [valueNames?] at others
    simp [valueNames?, text, others]

end Simulation

namespace Sample

def vast : Data :=
  .ofList [node "user_interaction" [],
    node "decision" [(.text "expression", .int (Nat.pow 10 400))]]

end Sample

namespace Simulation

end Simulation

end Walkthrough
