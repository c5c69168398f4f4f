import Walkthrough.Proofs.Expression.Lookup
import Walkthrough.Proofs.Simulation.Admission

/-! What expressions read is what was submitted. A record lists the submissions that survive the
calls made so far: going back strikes out the latest, a reset strikes out all, and no other call
does anything to it. A name reads what the latest submission on record gave it. -/
namespace Walkthrough

inductive Submission where
  | replies (values : Entries Unit)
  | response (name : String) (payload : Data)

namespace Submission

def reply? (name : String) : Submission → Option Data
  -- of a name given twice the last value counts
  | replies values => (Entries.ofList values).field? name
  | response .. => none

def response? (name : String) : Submission → Option Data
  | replies _ => none
  | response stored payload => if stored = name then some payload else none

def enter : Submission → Context → Context
  | replies values, c => c.withReplies values
  | response name payload, c => c.withResponse name payload

def Plain : Submission → Prop
  | replies _ => True
  | response _ payload => payload.Structured

end Submission

/-- What the latest submission says that says anything, null if none does. -/
def latest (look : Submission → Option Data) (record : List Submission) : Data :=
  (record.findSome? look).getD .null

namespace Simulation

/-- An answer that is accepted, with what it submits. Values are named by text. -/
inductive Takes (s : Simulation) : Answer → Submission → Prop where
  | values {values : Data} {entries : Entries Unit} (waits : s.status = .awaitingInput)
      (form : values.toEntries = .ok entries) (named : ∀ e ∈ entries, ∃ t, e.1 = .text t)
      (answered : ∀ f ∈ s.fields, f.Answered entries) : Takes s (.values values) (.replies entries)
  | response {id stored : String} {name response given payload : Data} {ended : Bool}
      (waits : s.status = .awaitingCall) (here : s.current = .node (.call id name response ended))
      (named : responseName given name response = .ok stored) (structured : payload.Structured) :
      Takes s (.response given payload) (.response stored payload)

/-- The submissions that survive calls, the latest first, whether the calls returned or were left
by an error. -/
inductive Recorded (settings : Settings) : Simulation → List Submission → Prop where
  | created {now : Instant} {document : Data} {s : Simulation} {r : Reply}
      (h : ofDocument settings now document = .ok (some (s, .ok r))) : Recorded settings s []
  | taken {s s' : Simulation} {record : List Submission} {a : Answer} {w : Submission}
      {result : Except Escape Reply} (recorded : Recorded settings s record) (takes : s.Takes a w)
      (h : s.perform (.answer a) = .ok (some (s', result))) : Recorded settings s' (w :: record)
  | untaken {s s' : Simulation} {record : List Submission} {a : Answer}
      {result : Except Escape Reply} (recorded : Recorded settings s record)
      (refused : ∀ w, ¬s.Takes a w) (h : s.perform (.answer a) = .ok (some (s', result))) :
      Recorded settings s' record
  | back {s s' : Simulation} {record : List Submission} {result : Except Escape Reply}
      (recorded : Recorded settings s record) (h : s.perform .goBack = .ok (some (s', result))) :
      Recorded settings s' record.tail
  | reset {s s' : Simulation} {record : List Submission} {now : Instant} {document : Data}
      {result : Except Escape Reply} (recorded : Recorded settings s record)
      (h : s.perform (.reset now document) = .ok (some (s', result))) : Recorded settings s' []

end Simulation

def Context.Shows (c : Context) (record : List Submission) : Prop :=
  ∀ name, c.replies.field? name = record.findSome? (Submission.reply? name) ∧
    c.responses.field? name = record.findSome? (Submission.response? name)

/-- Every saved context holds what was on record when it was saved. -/
inductive Saved : List Snapshot → List Submission → Prop where
  | nil : Saved [] []
  | cons {snapshot : Snapshot} {history : List Snapshot} {w : Submission}
      {record : List Submission} (shows_ : snapshot.context.Shows record)
      (saved : Saved history record) : Saved (snapshot :: history) (w :: record)

theorem Context.shows_empty (now : Instant) : (Context.empty now).Shows [] :=
  fun _ => ⟨rfl, rfl⟩

theorem Context.Shows.enter {c : Context} {record : List Submission} (shows_ : c.Shows record)
    (w : Submission) : (w.enter c).Shows (w :: record) := by
  intro name
  obtain ⟨replies, responses⟩ := shows_ name
  cases w with
  | replies values =>
    refine ⟨?_, responses⟩
    simp only [Submission.enter, Context.withReplies, Entries.field?_merge_ofList, replies,
      List.findSome?_cons, Submission.reply?]
    cases (Entries.ofList values).field? name <;> rfl
  | response stored payload =>
    refine ⟨replies, ?_⟩
    simp only [Submission.enter, Context.withResponse, Entries.field?_insert, responses,
      List.findSome?_cons, Submission.response?]
    by_cases here : stored = name <;> simp [here]

namespace Simulation

structure Remembers (s : Simulation) (record : List Submission) : Prop where
  posed : s.Posed
  shows_ : s.context.Shows record
  saved : Saved s.history record
  plain : ∀ w ∈ record, w.Plain

variable {settings : Settings} {s s' d : Simulation} {record : List Submission} {c : Call}
  {a : Answer} {w : Submission} {result : Except Escape Reply}

theorem named_of_valueNames? {entries : Entries Unit} (named : (valueNames? entries).isSome) :
    ∀ e ∈ entries, ∃ t, e.1 = .text t := by
  induction entries with
  | nil => exact nofun
  | cons e entries ih =>
    obtain ⟨names, all⟩ := Option.isSome_iff_exists.mp named
    rw [valueNames?, List.mapM_cons] at all
    obtain ⟨name, first, rest⟩ := Option.bind_eq_some_iff.mp all
    obtain ⟨others, later, -⟩ := Option.bind_eq_some_iff.mp rest
    refine List.forall_mem_cons.mpr ⟨?_, ih (by rw [valueNames?, later]; rfl)⟩
    split at first
    · rename_i t key
      exact ⟨t, key⟩
    · cases first

theorem Posed.departs_of_takes (posed : s.Posed) (takes : s.Takes a w) :
    s.Departs (.answer a) (s.past "" (w.enter s.context)) := by
  cases takes with
  | values waits form named answered =>
    obtain ⟨id, prompt, fields, ended, here⟩ := posed.input_iff.mp waits
    refine .values here form ?_ (valueNames?_isSome named)
    rw [missingFields_eq here]
    exact unanswered_eq_nil.mpr answered
  | response waits here named structured =>
    exact .response here named ((Value.isStructured_iff _).mpr structured)

theorem Posed.takes_of_departs (posed : s.Posed) (departs : s.Departs (.answer a) d) :
    ∃ w, s.Takes a w := by
  cases departs with
  | values here form complete named =>
    rw [missingFields_eq here] at complete
    exact ⟨_, .values (posed.input_iff.mpr ⟨_, _, _, _, here⟩) form (named_of_valueNames? named)
      (unanswered_eq_nil.mp complete)⟩
  | response here named structured =>
    exact ⟨_, .response (posed.call_iff.mpr ⟨_, _, _, _, here⟩) here named
      ((Value.isStructured_iff _).mp structured)⟩

theorem Posed.after (posed : s.Posed) (departs : s.Departs c d)
    (h : s.perform c = .ok (some (s', result))) :
    s'.Posed ∧ s'.context = d.context ∧ s'.history = d.history := by
  obtain ⟨d', performed, same⟩ := departs.perform_eq
  have walked : d'.walk = some (s', result) := Except.ok.inj (performed.symm.trans h)
  obtain ⟨-, -, -, context, history, -⟩ := mk.inj same
  obtain ⟨-, -, kept, kept'⟩ := kept_of_walk walked
  exact ⟨posed_of_perform posed h, kept.trans context, kept'.trans history⟩

theorem Posed.same_of_untaken (posed : s.Posed) (refused : ∀ w, ¬s.Takes a w)
    (h : s.perform (.answer a) = .ok (some (s', result))) : s' = s := by
  obtain ⟨p, rejects⟩ | ⟨d, departs⟩ | ⟨e, raised⟩ := take_choice s a
  · cases h.symm.trans rejects.perform_eq
    rfl
  · obtain ⟨w, takes⟩ := posed.takes_of_departs departs
    exact absurd takes (refused w)
  · cases (Except.ok.inj h).symm.trans raised
    rfl

/-- An answer that returns is taken just when it is not refused. -/
theorem Posed.takes_iff_accepted (posed : s.Posed) {r : Reply}
    (returns : s.perform (.answer a) = .ok (some (s', .ok r))) :
    (∃ w, s.Takes a w) ↔ r.refused = false := by
  constructor
  · rintro ⟨w, takes⟩
    exact posed.accepted_of_departs (posed.departs_of_takes takes) returns
  · intro accepted
    obtain ⟨p, rejects⟩ | ⟨d, departs⟩ := choice_of_returns returns
    · cases returns.symm.trans rejects.perform_eq
      simp [Reply.refused, Problem.report, rejects.mild] at accepted
    · exact posed.takes_of_departs departs

theorem Takes.plain (takes : s.Takes a w) : w.Plain := by
  cases takes with
  | values => trivial
  | response _ _ _ structured => exact structured

/-- With nothing saved there is nothing on record, so nothing is struck out. -/
theorem Remembers.back (remembers : s.Remembers record)
    (h : s.perform .goBack = .ok (some (s', result))) : s'.Remembers record.tail := by
  have saved := remembers.saved
  cases history : s.history with
  | nil =>
    rw [history] at saved
    cases saved
    cases h.symm.trans (Rejects.noHistory history).perform_eq
    exact remembers
  | cons snapshot rest =>
    rw [history] at saved
    cases saved with
    | cons shows_ saved =>
      -- the saved context shows what was on record before the latest submission
      obtain ⟨d, departs, before, left⟩ := back_departs history
      obtain ⟨posed, context, history'⟩ := remembers.posed.after departs h
      exact ⟨posed, (context.trans before).symm ▸ shows_, (history'.trans left).symm ▸ saved,
        fun w inside => remembers.plain w (List.mem_of_mem_tail inside)⟩

theorem Recorded.remembers (recorded : Recorded settings s record) : s.Remembers record := by
  induction recorded with
  | created begun =>
    obtain ⟨nodes, log, -, walked⟩ := ofDocument_eq begun
    obtain ⟨-, -, context, history⟩ := kept_of_walk walked.symm
    exact ⟨posed_of_walk rfl walked.symm, context ▸ Context.shows_empty _, history ▸ .nil, nofun⟩
  | taken _ takes h ih =>
    obtain ⟨posed, context, history⟩ := ih.posed.after (ih.posed.departs_of_takes takes) h
    refine ⟨posed, context ▸ ih.shows_.enter _, history ▸ .cons ih.shows_ ih.saved, ?_⟩
    exact List.forall_mem_cons.mpr ⟨takes.plain, ih.plain⟩
  | untaken _ refused h ih => exact ih.posed.same_of_untaken refused h ▸ ih
  | back _ h ih => exact ih.back h
  | reset _ h ih =>
    obtain ⟨nodes, departs⟩ := reset_departs h
    obtain ⟨posed, context, history⟩ := ih.posed.after departs h
    exact ⟨posed, context ▸ Context.shows_empty _, history ▸ .nil, nofun⟩

theorem Driven.recorded (driven : Driven settings s) : ∃ record, Recorded settings s record := by
  induction driven with
  | created begun => exact ⟨[], .created begun⟩
  | @called s s' c result driven h ih =>
    obtain ⟨record, recorded⟩ := ih
    cases c with
    | answer a =>
      by_cases takes : ∃ w, s.Takes a w
      · obtain ⟨w, takes⟩ := takes
        exact ⟨w :: record, .taken recorded takes h⟩
      · exact ⟨record, .untaken recorded (fun w takes' => takes ⟨w, takes'⟩) h⟩
    | goBack => exact ⟨record.tail, .back recorded h⟩
    | reset now document => exact ⟨[], .reset recorded h⟩

end Simulation

section Names

open Expression

variable {c : Context} {record : List Submission} {name : String}

theorem Context.Shows.evaluate_replies (shows_ : c.Shows record) (word : IsWord name)
    (plain : '.' ∉ name.toList) : evaluate (.text ("replies." ++ name)) c.toData =
      (latest (Submission.reply? name) record).normalize := by
  have front : "replies." ++ name = dotted "replies" name := by
    rw [dotted]
    exact congrArg (· ++ name) (by decide)
  rw [latest, ← (shows_ name).1, front, Context.toData]
  exact evaluate_dotted leading_replies word plain (by simp)

theorem Context.Shows.evaluate_responses (shows_ : c.Shows record) (word : IsWord name)
    (plain : '.' ∉ name.toList) : evaluate (.text ("api_responses." ++ name)) c.toData =
      (latest (Submission.response? name) record).normalize := by
  have front : "api_responses." ++ name = dotted "api_responses" name := by
    rw [dotted]
    exact congrArg (· ++ name) (by decide)
  rw [latest, ← (shows_ name).2, front, Context.toData]
  exact evaluate_dotted leading_responses word plain (by simp)

theorem normalize_latest_response (structured : ∀ w ∈ record, w.Plain) :
    (latest (Submission.response? name) record).normalize =
      latest (Submission.response? name) record := by
  unfold latest
  cases found : record.findSome? (Submission.response? name) with
  | none => rfl
  | some payload =>
    obtain ⟨w, inside, told⟩ := List.exists_of_findSome?_eq_some found
    cases w with
    | replies values => cases told
    | response stored payload' =>
      simp only [Submission.response?] at told
      split at told
      · cases told
        have plain : payload.Structured := structured _ inside
        cases plain <;> rfl
      · cases told

end Names

open Expression in
/-- In every state, and for every record of how calls have led there, a name reads what the latest
submission on record gave it. An answer that returns is recorded just when it is accepted, and walks
change nothing that is read. -/
theorem evaluate_recorded (settings : Settings) :
    (∀ s, Simulation.Driven settings s → (∃ record, Simulation.Recorded settings s record) ∧
      ∀ a s' r, s.perform (.answer a) = .ok (some (s', .ok r)) →
        ((∃ w, s.Takes a w) ↔ r.refused = false)) ∧
    (∀ s record, Simulation.Recorded settings s record → ∀ name, IsWord name → '.' ∉ name.toList →
      evaluate (.text ("replies." ++ name)) s.context.toData =
        (latest (Submission.reply? name) record).normalize ∧
      evaluate (.text ("api_responses." ++ name)) s.context.toData =
        latest (Submission.response? name) record) ∧
    ∀ (s s' : Simulation) result, s.walk = some (s', result) → s'.context = s.context := by
  refine ⟨?_, ?_, fun s s' result walked => (Simulation.kept_of_walk walked).2.2.1⟩
  · intro s driven
    exact ⟨driven.recorded, fun a s' r returns => driven.posed.takes_iff_accepted returns⟩
  intro s record recorded name word plain
  have remembers := recorded.remembers
  rw [← normalize_latest_response remembers.plain]
  exact ⟨remembers.shows_.evaluate_replies word plain, remembers.shows_.evaluate_responses word plain⟩

open Simulation Sample Expression in
/-- Of two answers to one question the second is taken back, so the first is read again. -/
theorem evaluate_recorded_survey : ∃ s record, Recorded {} s record ∧ record.length = 1 ∧
    evaluate (.text ("replies." ++ "reply")) s.context.toData = .text "one" := by
  have led : (begin? {} noon survey).any (fun s => s.status == .awaitingInput && s.fields.isEmpty &&
      (s.accept? (told "one")).any fun t => t.status == .awaitingInput && t.fields.isEmpty &&
        (t.accept? (told "two")).any fun u => u.goBack.isSome) = true := by decide +kernel
  have takes {s : Simulation} (waits : s.status = .awaitingInput) (free : s.fields = [])
      (text : String) : s.Takes (told text) (.replies [(.text "reply", .text text)]) :=
    .values waits rfl (by simp) (by simp [free])
  obtain ⟨s, begun, first⟩ := (Option.any_eq_true _ _).mp led
  simp only [Bool.and_eq_true, beq_iff_eq, List.isEmpty_iff] at first
  obtain ⟨⟨waits, free⟩, first⟩ := first
  obtain ⟨t, took, second⟩ := (Option.any_eq_true _ _).mp first
  simp only [Bool.and_eq_true, beq_iff_eq, List.isEmpty_iff] at second
  obtain ⟨⟨waits', free'⟩, second⟩ := second
  obtain ⟨u, took', third⟩ := (Option.any_eq_true _ _).mp second
  obtain ⟨⟨v, result⟩, back⟩ := Option.isSome_iff_exists.mp third
  obtain ⟨r, created⟩ := begin?_eq_some begun
  obtain ⟨r', taken, -⟩ := accept?_eq_some took
  obtain ⟨r'', taken', -⟩ := accept?_eq_some took'
  have asked : Recorded {} s [] := .created created
  have once := asked.taken (takes waits free "one") (congrArg Except.ok taken)
  have twice := once.taken (takes waits' free' "two") (congrArg Except.ok taken')
  have undone := twice.back (congrArg Except.ok back)
  exact ⟨v, _, undone, rfl,
    ((evaluate_recorded {}).2.1 v _ undone "reply" (by decide) (by decide)).1⟩

end Walkthrough
