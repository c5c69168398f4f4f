import Walkthrough.Proofs.Simulation.Log
import Walkthrough.Proofs.Simulation.Place

/-! Going back. A ledger records a sequence of calls as the answers that survive it: going back
strikes out the latest one, a reset strikes out all. Whatever calls were made, the state that they
lead to is the one that a new simulation reaches on the surviving answers alone. -/
namespace Walkthrough

/-- What survives of the calls so far: the document and the time of the last reset, and the answers
since then that have not been taken back, the latest first. -/
structure Ledger where
  document : Data
  now : Instant
  answers : List Answer

def Ledger.enter (l : Ledger) : Call → Ledger
  | .answer a => { l with answers := a :: l.answers }
  | .goBack => { l with answers := l.answers.tail }
  | .reset now .null => { l with now := now, answers := [] }
  | .reset now document => ⟨document, now, []⟩

namespace Simulation

/-- The state and the ledger after a sequence of calls. A document that cannot be read changes
nothing; any other call that does not return leaves nothing to speak of. -/
def play (s : Simulation) (l : Ledger) : List Call → Option (Simulation × Ledger)
  | [] => some (s, l)
  | c :: rest =>
    match s.perform c with
    | .error _ => s.play l rest
    | .ok (some (s', .ok r)) => s'.play (if r.refused then l else l.enter c) rest
    | .ok _ => none

end Simulation

def Ledger.replay (l : Ledger) (settings : Settings) : Option Simulation :=
  (Simulation.begin? settings l.now l.document).bind fun s => s.feed l.answers.reverse

namespace Simulation

variable {settings : Settings} {s s' t d : Simulation} {a : Answer} {c : Call} {l : Ledger}
  {r : Reply}

theorem feed_append (s : Simulation) (xs : List Answer) (a : Answer) :
    s.feed (xs ++ [a]) = (s.feed xs).bind fun s' => s'.accept? a := by
  induction xs generalizing s with
  | nil =>
    cases taken : s.accept? a <;> simp [feed, taken]
  | cons x xs ih =>
    cases taken : s.accept? x <;> simp [feed, taken, ih]

theorem replay_cons (l : Ledger) (a : Answer) :
    Ledger.replay { l with answers := a :: l.answers } settings =
      (l.replay settings).bind fun s => s.accept? a := by
  simp only [Ledger.replay, List.reverse_cons, feed_append, Option.bind_assoc]

theorem replay_induction {P : Simulation → Prop}
    (start : ∀ {s r}, ofDocument settings l.now l.document = .ok (some (s, .ok r)) → P s)
    (taken : ∀ {s s' a r}, P s → s.take a = some (s', .ok r) → r.refused = false → P s')
    (h : l.replay settings = some s) : P s := by
  obtain ⟨document, now, answers⟩ := l
  induction answers generalizing s with
  | nil =>
    obtain ⟨u, begun, rest⟩ := Option.bind_eq_some_iff.mp h
    cases rest
    obtain ⟨r, begun⟩ := begin?_eq_some begun
    exact start begun
  | cons a rest ih =>
    obtain ⟨u, before, accepted⟩ := Option.bind_eq_some_iff.mp
      ((replay_cons ⟨document, now, rest⟩ a).symm.trans h)
    obtain ⟨r, taking, accepted⟩ := accept?_eq_some accepted
    exact taken (ih start before) taking accepted

theorem reached_of_replay (h : l.replay settings = some s) : Reached settings s :=
  replay_induction .created
    (fun reached taking _ => .called (c := .answer _) reached (congrArg Except.ok taking)) h

/-- Going back undoes an accepted answer, whatever it has led to. -/
theorem Settled.goBack_of_take (h : s.Settled) (taken : s.take a = some (s', .ok r))
    (accepted : r.refused = false) :
    ∃ back, s'.goBack = some (back, .ok back.reply) ∧ back.unlogged = s.unlogged := by
  obtain ⟨n, -, -, waits, -⟩ := h.take_cases taken accepted
  obtain ⟨here, awaits, clean, room⟩ := h.awaits waits
  obtain ⟨settings, workflow, history⟩ := h.kept_of_take taken accepted
  obtain ⟨lines, walked⟩ := walk_of_awaits
    (d := ({ s' with
      stack := s.stack
      context := s.context
      history := s.history
      status := .running
      error := none } : Simulation).note s!"[Back] History depth: {s.history.length}")
    here awaits (settings ▸ room)
  refine ⟨_, by simpa only [goBack, history] using walked, ?_⟩
  simp only [unlogged, note, settings, workflow, clean]

theorem denotes_of_replay (h : l.replay settings = some s) : Denotes l.document s.workflow := by
  have both : Reached settings s ∧ Denotes l.document s.workflow := by
    refine replay_induction (P := fun s => Reached settings s ∧ Denotes l.document s.workflow)
      ?_ ?_ h
    · intro s r begun
      obtain ⟨nodes, log, denotes, walked⟩ := ofDocument_eq begun
      have workflow := (kept_of_walk walked.symm).2.1
      exact ⟨.created begun, workflow ▸ denotes⟩
    · rintro s s' a r ⟨reached, denotes⟩ taken accepted
      have workflow := (reached.settled.kept_of_take taken accepted).2.1
      exact ⟨.called (c := .answer a) reached (congrArg Except.ok taken), workflow ▸ denotes⟩
  exact both.2

end Simulation

def Ledger.Tracks (settings : Settings) (l : Ledger) (s : Simulation) : Prop :=
  ∃ t, l.replay settings = some t ∧ t.unlogged = s.unlogged

namespace Ledger.Tracks

open Simulation

variable {settings : Settings} {s s' : Simulation} {l : Ledger} {c : Call} {a : Answer} {r : Reply}

theorem fresh {now : Instant} {document : Data} {nodes : List Node} {log : List String}
    (denotes : Denotes document nodes)
    (walked : (fresh settings now nodes log).walk = some (s, .ok r)) :
    Tracks settings ⟨document, now, []⟩ s := by
  obtain ⟨other, begun⟩ := ofDocument_of_denotes settings now denotes
  have same : Outcome.unlogged (Simulation.fresh settings now nodes log).walk =
      Outcome.unlogged (Simulation.fresh settings now nodes other).walk := walk_unlogged rfl
  obtain ⟨t, walks, alike⟩ := Outcome.of_unlogged same walked
  exact ⟨t, by simp [replay, begin?, begun, walks, feed], alike⟩

theorem answer (tracks : Tracks settings l s) (taken : s.take a = some (s', .ok r))
    (accepted : r.refused = false) : Tracks settings (l.enter (.answer a)) s' := by
  obtain ⟨t, replayed, alike⟩ := tracks
  obtain ⟨t', taken', alike'⟩ := Outcome.of_unlogged (take_unlogged alike.symm a) taken
  have accepts : t.accept? a = some t' := by simp [accept?, taken', accepted]
  exact ⟨t', (replay_cons l a).trans (by rw [replayed, Option.bind_some, accepts]), alike'⟩

theorem goBack (tracks : Tracks settings l s) (saved : s.history ≠ [])
    (back : s.goBack = some (s', .ok r)) : Tracks settings (l.enter .goBack) s' := by
  obtain ⟨t, replayed, alike⟩ := tracks
  obtain ⟨document, now, answers⟩ := l
  cases answers with
  | nil =>
    -- a simulation that has taken no answer has saved nothing
    obtain ⟨u, begun, rest⟩ := Option.bind_eq_some_iff.mp replayed
    cases rest
    obtain ⟨q, begun⟩ := begin?_eq_some begun
    obtain ⟨nodes, log, -, walked⟩ := ofDocument_eq begun
    have empty : t.history = [] := (kept_of_walk walked.symm).2.2.2
    have same : t.history = s.history := (Simulation.mk.inj alike).2.2.2.2.1
    exact absurd (same.symm.trans empty) saved
  | cons a rest =>
    obtain ⟨u, before, accepted⟩ := Option.bind_eq_some_iff.mp
      ((replay_cons ⟨document, now, rest⟩ a).symm.trans replayed)
    obtain ⟨q, taken, accepted⟩ := accept?_eq_some accepted
    -- the latest answer of the ledger is the one that going back takes back
    obtain ⟨v, returned, restored⟩ :=
      (reached_of_replay before).settled.goBack_of_take taken accepted
    obtain ⟨t', returned', alike'⟩ := Outcome.of_unlogged (goBack_unlogged alike.symm) back
    cases returned.symm.trans returned'
    exact ⟨u, before, restored.symm.trans alike'⟩

theorem reset {now : Instant} {document : Data} {nodes : List Node} {log : List String}
    (tracks : Tracks settings l s)
    (read : (document = .null ∧ nodes = s.workflow) ∨ readWorkflow document = .ok nodes)
    (walked : (Simulation.fresh settings now nodes log).walk = some (s', .ok r)) :
    Tracks settings (l.enter (.reset now document)) s' := by
  obtain ⟨t, replayed, alike⟩ := tracks
  have workflow : t.workflow = s.workflow := (Simulation.mk.inj alike).2.1
  rcases read with ⟨rfl, rfl⟩ | read
  · -- the workflow is still the one that the ledger's document stands for
    exact fresh (workflow ▸ denotes_of_replay replayed) walked
  · have given : document ≠ .null := by
      rintro rfl
      cases read
    have entered : l.enter (.reset now document) = ⟨document, now, []⟩ :=
      Ledger.enter.eq_4 l now document given
    exact entered ▸ fresh (.inr read) walked

theorem enter (reached : Reached settings s) (tracks : Tracks settings l s)
    (returns : s.perform c = .ok (some (s', .ok r))) (accepted : r.refused = false) :
    Tracks settings (l.enter c) s' := by
  rcases reached.settled.perform_cases returns with ⟨refused, -⟩ | ⟨-, d, departs, walked⟩
  · cases refused.symm.trans accepted
  · cases c with
    | answer a => exact tracks.answer (Except.ok.inj returns) accepted
    | goBack =>
      cases departs with
      | back saved => exact tracks.goBack (by simp [saved]) (Except.ok.inj returns)
    | reset now document =>
      cases departs with
      | reset read => exact tracks.reset read (reached.settings_eq ▸ walked)

theorem play {calls : List Call} {l' : Ledger} (reached : Reached settings s)
    (tracks : Tracks settings l s) (played : s.play l calls = some (s', l')) :
    Reached settings s' ∧ Tracks settings l' s' := by
  induction calls generalizing s l with
  | nil =>
    cases played
    exact ⟨reached, tracks⟩
  | cons c rest ih =>
    simp only [Simulation.play] at played
    split at played
    · exact ih reached tracks played
    · rename_i u r returns
      have next : Reached settings u := .called reached returns
      split at played
      · -- a refused call leaves both the state and the ledger as they are
        rename_i refused
        rcases reached.settled.perform_cases returns with ⟨-, same⟩ | ⟨accepted, -⟩
        · exact ih next (same ▸ tracks) played
        · cases refused.symm.trans accepted
      · rename_i accepted
        exact ih next (enter reached tracks returns (by simpa using accepted)) played
    · cases played

end Ledger.Tracks

/-- Whatever calls were made and have returned, the state is that of a new simulation on the
surviving answers, and going back undoes any answer that is accepted then. -/
theorem replay_of_play {settings : Settings} {document : Data} {now : Instant}
    {start s : Simulation} {r : Reply} {calls : List Call} {l : Ledger}
    (begun : Simulation.ofDocument settings now document = .ok (some (start, .ok r)))
    (played : start.play ⟨document, now, []⟩ calls = some (s, l)) :
    (∃ t, l.replay settings = some t ∧ t.unlogged = s.unlogged) ∧
      ∀ a s' r, s.take a = some (s', .ok r) → r.refused = false →
        ∃ back, s'.goBack = some (back, .ok back.reply) ∧ back.unlogged = s.unlogged := by
  obtain ⟨nodes, log, denotes, walked⟩ := Simulation.ofDocument_eq begun
  obtain ⟨reached, tracks⟩ := Ledger.Tracks.play (.created begun)
    (Ledger.Tracks.fresh denotes walked.symm) played
  exact ⟨tracks, fun a s' r taken accepted => reached.settled.goBack_of_take taken accepted⟩

namespace Sample

def session : List Call :=
  [.answer (told "one"), .answer (.response .null .null), .answer (told "two"), .goBack,
    .reset noon (.text "nothing"), .answer (told "three")]

end Sample

open Sample in
/-- Two answers survive a refusal, a step back and a document that cannot be read. -/
theorem replay_of_play_session : ∃ (start s : Simulation) (l : Ledger),
    start.play ⟨survey, noon, []⟩ session = some (s, l) ∧ l.answers.length = 2 ∧
      ∃ t, l.replay {} = some t ∧ t.unlogged = s.unlogged := by
  have led : ((Simulation.begin? {} noon survey).bind fun start =>
      start.play ⟨survey, noon, []⟩ session).any (fun played =>
        played.2.answers.length == 2) = true := by decide +kernel
  obtain ⟨⟨s, l⟩, played, answers⟩ := (Option.any_eq_true _ _).mp led
  obtain ⟨start, begun, played⟩ := Option.bind_eq_some_iff.mp played
  obtain ⟨r, begun⟩ := Simulation.begin?_eq_some begun
  exact ⟨start, s, l, played, by simpa using answers, (replay_of_play begun played).1⟩

end Walkthrough
