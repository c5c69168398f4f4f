import Walkthrough.Proofs.Simulation.Escape
import Walkthrough.Proofs.Value.Structured

/-! Which calls are accepted. Values are accepted where input is awaited and no required field goes
unanswered, responses where one is awaited and they are structured, a step back where something is
saved; whatever else returns is refused with its reason and changes nothing. This holds in every
state that calls lead to, also behind calls that were left by an error. -/
namespace Walkthrough

/-- A field has its answer among values, or needs none. -/
def Field.Answered (f : Field) (values : Entries Unit) : Prop :=
  f.attributes.optional = true ∨ ∃ v, values.field? f.name = some v ∧ v ≠ .null ∧ v ≠ .text ""

/-- What a refusal tells: a code, and the names of the fields it is about. -/
def Reply.Reports (r : Reply) (code : String) (missing : List String) : Prop :=
  r.success = false ∧ ∃ e, r.error = some e ∧ e.kind.code = code ∧ e.missing = missing

theorem isBlankAnswer_eq_false {given : Option Data} : Simulation.isBlankAnswer given = false ↔
    ∃ v, given = some v ∧ v ≠ .null ∧ v ≠ .text "" := by
  unfold Simulation.isBlankAnswer
  split
  · simp
  · simp
  · rename_i s
    simp
  · rename_i v null text
    simp only [Option.some.injEq, true_iff]
    exact ⟨v, rfl, null, text ""⟩

theorem Field.answered_iff (f : Field) (values : Entries Unit) : f.Answered values ↔
    (f.required && Simulation.isBlankAnswer (values.field? f.name)) = false := by
  rw [Answered, ← isBlankAnswer_eq_false, Bool.and_eq_false_iff]
  simp [required]

instance (f : Field) (values : Entries Unit) : Decidable (f.Answered values) :=
  decidable_of_iff _ (f.answered_iff values).symm

def Stack.Poses (stack : Stack) (status : Status) : Prop :=
  (status = .awaitingInput → ∃ id prompt fields ended,
    stack.top.node? = some (.interaction id prompt fields ended)) ∧
  (status = .awaitingCall → ∃ id name response ended,
    stack.top.node? = some (.call id name response ended))

theorem Stack.Rests.poses {stack : Stack} {status : Status} (rests : stack.Rests status) :
    stack.Poses status := by
  cases rests with
  | awaits here awaits =>
    cases awaits with
    | interaction => exact ⟨fun _ => ⟨_, _, _, _, here⟩, nofun⟩
    | call _ => exact ⟨nofun, fun _ => ⟨_, _, _, _, here⟩⟩
  | completed _ _ => exact ⟨nofun, nofun⟩

def Stop.status : Stop → Status
  | halted status => status
  | failed _ => .failed
  | escaped status _ => status

theorem Walk.Ends.poses {env : Surroundings} {v w : Walk} {stop : Stop}
    (ends : v.Ends env w stop) : v.stack.Poses stop.status := by
  cases stop with
  | halted status => exact ends.rests.poses
  | failed p => exact ⟨nofun, nofun⟩
  | escaped status e =>
    cases ends with
    | stopped stop _ =>
      cases (stops_of_step stop).2.2 with
      | decisionFault | decisionUnlogged | whileFault | whileUnlogged | repeatFault => exact ⟨nofun, nofun⟩
      | nameless here _ => exact ⟨nofun, fun _ => ⟨_, _, _, _, here⟩⟩

namespace Simulation

/-- The states that calls lead to, whether they returned or were left by an error. -/
inductive Driven (settings : Settings) : Simulation → Prop where
  | created {now : Instant} {document : Data} {s : Simulation} {r : Reply}
      (h : ofDocument settings now document = .ok (some (s, .ok r))) : Driven settings s
  | called {s s' : Simulation} {c : Call} {result : Except Escape Reply}
      (driven : Driven settings s) (h : s.perform c = .ok (some (s', result))) : Driven settings s'

def fields (s : Simulation) : List Field := (s.interaction?.map (·.2)).getD []

def unanswered (s : Simulation) (values : Entries Unit) : List String :=
  (s.fields.filter fun f => ¬f.Answered values).map Field.name

def Admits (s : Simulation) : Call → Prop
  | .answer (.values values) => s.status = .awaitingInput ∧
    ∃ entries, values.toEntries = .ok entries ∧ ∀ f ∈ s.fields, f.Answered entries
  | .answer (.response _ payload) => s.status = .awaitingCall ∧ payload.Structured
  | .goBack => s.history ≠ []
  | .reset _ document => document = .null ∨ ∃ nodes, readWorkflow document = .ok nodes

/-- The first reason why a call is refused. -/
inductive Refuses (s : Simulation) : Call → String → List String → Prop where
  | noInput {values : Data} (elsewhere : s.status ≠ .awaitingInput) :
      Refuses s (.answer (.values values)) "INVALID_STATE" []
  | unanswered {values : Data} {entries : Entries Unit} (waits : s.status = .awaitingInput)
      (form : values.toEntries = .ok entries) :
      Refuses s (.answer (.values values)) "VALIDATION_ERROR" (s.unanswered entries)
  | noCall {given payload : Data} (elsewhere : s.status ≠ .awaitingCall) :
      Refuses s (.answer (.response given payload)) "INVALID_STATE" []
  | payload {given payload : Data} (waits : s.status = .awaitingCall)
      (loose : ¬payload.Structured) :
      Refuses s (.answer (.response given payload)) "INVALID_PAYLOAD" []
  | noHistory (empty : s.history = []) : Refuses s .goBack "NO_HISTORY" []

/-- While an answer is awaited, the node at the place is one that takes it, and only a simulation
that has failed has an error. -/
structure Posed (s : Simulation) : Prop where
  place : s.stack.Poses s.status
  clean : s.status ≠ .failed → s.error = none

variable {settings : Settings} {s s' d : Simulation} {c : Call} {a : Answer} {r : Reply}
  {p : Problem} {e : Escape} {result : Except Escape Reply}

theorem posed_of_walk (clean : d.error = none) (h : d.walk = some (s, result)) : s.Posed := by
  obtain ⟨k, v, w, stop, -, ends, settled⟩ := walk_ends h
  have place : w.stack.Poses stop.status := ends.stack_eq ▸ ends.poses
  cases stop with
  | halted status =>
    cases settled
    exact ⟨place, fun _ => clean⟩
  | failed p =>
    cases settled
    exact ⟨place, fun unfailed => absurd rfl unfailed⟩
  | escaped status e =>
    cases settled
    exact ⟨place, fun _ => clean⟩

/-- Input is awaited just where an interaction waits for it, and likewise for calls. -/
theorem Posed.input_iff (posed : s.Posed) : s.status = .awaitingInput ↔
    ∃ id prompt fields ended, s.current = .node (.interaction id prompt fields ended) := by
  constructor
  · intro waits
    obtain ⟨id, prompt, fields, ended, here⟩ := posed.place.1 waits
    exact ⟨id, prompt, fields, ended, by simp only [current, waits, here]⟩
  · rintro ⟨id, prompt, fields, ended, here⟩
    obtain ⟨input | call, at_⟩ := current_eq_node here
    · exact input
    · obtain ⟨_, _, _, _, other⟩ := posed.place.2 call
      cases at_.symm.trans other

theorem Posed.call_iff (posed : s.Posed) : s.status = .awaitingCall ↔
    ∃ id name response ended, s.current = .node (.call id name response ended) := by
  constructor
  · intro waits
    obtain ⟨id, name, response, ended, here⟩ := posed.place.2 waits
    exact ⟨id, name, response, ended, by simp only [current, waits, here]⟩
  · rintro ⟨id, name, response, ended, here⟩
    obtain ⟨input | call, at_⟩ := current_eq_node here
    · obtain ⟨_, _, _, _, other⟩ := posed.place.1 input
      cases at_.symm.trans other
    · exact call

theorem Posed.clean_of_node {n : Node} (posed : s.Posed) (here : s.current = .node n) :
    s.error = none := by
  apply posed.clean
  obtain ⟨input | call, -⟩ := current_eq_node here
  · simp [input]
  · simp [call]

theorem Posed.departs_clean (posed : s.Posed) (departs : s.Departs c d) : d.error = none := by
  cases departs with
  | values waits _ _ _ => exact posed.clean_of_node waits
  | response waits _ _ => exact posed.clean_of_node waits
  | back _ => rfl
  | reset _ => rfl

theorem posed_of_perform (posed : s.Posed) (h : s.perform c = .ok (some (s', result))) :
    s'.Posed := by
  obtain ⟨o, outcome⟩ : ∃ o, o = some (s', result) := ⟨_, rfl⟩
  rw [← outcome] at h
  cases perform_performs h with
  | refused _ =>
    cases outcome
    exact posed
  | raised _ _ =>
    cases outcome
    exact posed
  | departed departs => exact posed_of_walk (posed.departs_clean departs) outcome

theorem Driven.posed (driven : Driven settings s) : s.Posed := by
  induction driven with
  | created begun =>
    obtain ⟨nodes, log, -, walked⟩ := ofDocument_eq begun
    exact posed_of_walk rfl walked.symm
  | called _ h ih => exact posed_of_perform ih h

/-! ## What a call comes to -/

inductive Rejects (s : Simulation) : Call → Problem → Prop where
  | noInput {values : Data} (elsewhere : ∀ id prompt fields ended,
      s.current ≠ .node (.interaction id prompt fields ended)) :
      Rejects s (.answer (.values values)) (s.refusal "UserInteraction")
  | unanswered {id : String} {prompt values : Data} {fields : List Field} {ended : Bool}
      {entries : Entries Unit} (waits : s.current = .node (.interaction id prompt fields ended))
      (form : values.toEntries = .ok entries) (lacks : missingFields fields entries ≠ []) :
      Rejects s (.answer (.values values)) (.missingFields (missingFields fields entries))
  | noCall {given payload : Data} (elsewhere : ∀ id name response ended,
      s.current ≠ .node (.call id name response ended)) :
      Rejects s (.answer (.response given payload)) (s.refusal "ApiCall")
  | payload {id stored : String} {name response given payload : Data} {ended : Bool}
      (waits : s.current = .node (.call id name response ended))
      (named : responseName given name response = .ok stored)
      (loose : payload.isStructured = false) :
      Rejects s (.answer (.response given payload)) (.malformedPayload stored)
  | noHistory (empty : s.history = []) : Rejects s .goBack .noHistory

theorem Rejects.mild (rejects : s.Rejects c p) : p.kind.fatal = false := by
  cases rejects with
  | noInput _ | noCall _ => exact refusal_mild s _
  | unanswered _ _ _ | payload _ _ _ | noHistory _ => rfl

theorem Rejects.perform_eq (rejects : s.Rejects c p) : s.perform c = .ok (s.reject p) := by
  cases rejects with
  | noInput elsewhere =>
    simp only [perform, take, submit]
  | unanswered waits form lacks =>
    simp only [perform, take, submit, waits, form]
  | noCall elsewhere =>
    simp only [perform, take, respond]
  | payload waits named loose =>
    simp only [perform, take, respond, waits, named, loose, Bool.false_eq_true, if_false]
  | noHistory empty => simp only [perform, goBack, empty]

/-- A call that neither departs nor is rejected does not return, and changes nothing. -/
theorem take_choice (s : Simulation) (a : Answer) : (∃ p, s.Rejects (.answer a) p) ∨
    (∃ d, s.Departs (.answer a) d) ∨ ∃ e, s.take a = some (s, .error e) := by
  cases a with
  | values values =>
    by_cases here : ∃ id prompt fields ended, s.current = .node (.interaction id prompt fields ended)
    · obtain ⟨id, prompt, fields, ended, waits⟩ := here
      cases form : values.toEntries with
      | error e =>
        exact .inr (.inr ⟨.shape e, by simp only [take, submit, waits, form]⟩)
      | ok entries =>
        cases lacks : missingFields fields entries with
        | cons name names => exact .inl ⟨_, .unanswered waits form (by simp [lacks])⟩
        | nil =>
          -- only values that leave no field unanswered are asked for their names
          cases named : valueNames? entries with
          | none =>
            exact .inr (.inr ⟨.shape .wrongKind, by
              simp only [take, submit, waits, form, lacks, named]⟩)
          | some names =>
            have departs : s.Departs (.answer (.values values))
                (s.past "" (s.context.withReplies entries)) :=
              .values waits form lacks (by simp [named])
            exact .inr (.inl ⟨_, departs⟩)
    · have elsewhere : ∀ id prompt fields ended,
          s.current ≠ .node (.interaction id prompt fields ended) :=
        fun id prompt fields ended waits => here ⟨id, prompt, fields, ended, waits⟩
      exact .inl ⟨_, .noInput elsewhere⟩
  | response given payload =>
    by_cases here : ∃ id name response ended, s.current = .node (.call id name response ended)
    · obtain ⟨id, name, response, ended, waits⟩ := here
      cases named : responseName given name response with
      | error e => exact .inr (.inr ⟨e, by simp only [take, respond, waits, named]⟩)
      | ok stored =>
        cases structured : payload.isStructured with
        | true =>
          have departs : s.Departs (.answer (.response given payload))
              (s.past "" (s.context.withResponse stored payload)) :=
            .response waits named structured
          exact .inr (.inl ⟨_, departs⟩)
        | false => exact .inl ⟨_, .payload waits named structured⟩
    · have elsewhere : ∀ id name response ended,
          s.current ≠ .node (.call id name response ended) :=
        fun id name response ended waits => here ⟨id, name, response, ended, waits⟩
      exact .inl ⟨_, .noCall elsewhere⟩

theorem fields_of_interaction {id : String} {prompt : Data} {fields : List Field} {ended : Bool}
    (waits : s.current = .node (.interaction id prompt fields ended)) : s.fields = fields := by
  simp only [Simulation.fields, interaction?, waits, Option.map_some, Option.getD_some]

theorem missingFields_eq {id : String} {prompt : Data} {fields : List Field} {ended : Bool}
    (waits : s.current = .node (.interaction id prompt fields ended)) (entries : Entries Unit) :
    missingFields fields entries = s.unanswered entries := by
  rw [missingFields, unanswered, fields_of_interaction waits]
  congr 1
  refine List.filter_congr fun f _ => ?_
  simp [f.answered_iff entries]

theorem unanswered_eq_nil {entries : Entries Unit} :
    s.unanswered entries = [] ↔ ∀ f ∈ s.fields, f.Answered entries := by
  simp [unanswered]

theorem Posed.admits_of_departs (posed : s.Posed) (departs : s.Departs c d) : s.Admits c := by
  cases departs with
  | values waits form complete _ =>
    rw [missingFields_eq waits] at complete
    exact ⟨posed.input_iff.mpr ⟨_, _, _, _, waits⟩, _, form, unanswered_eq_nil.mp complete⟩
  | response waits _ structured =>
    exact ⟨posed.call_iff.mpr ⟨_, _, _, _, waits⟩, (Value.isStructured_iff _).mp structured⟩
  | back saved =>
    intro empty
    cases saved.symm.trans empty
  | reset read => exact read.imp And.left fun read => ⟨_, read⟩

theorem Posed.refuses_of_rejects (posed : s.Posed) (rejects : s.Rejects c p) :
    ¬s.Admits c ∧ s.Refuses c p.kind.code p.missing := by
  cases rejects with
  | noInput elsewhere =>
    have status : s.status ≠ .awaitingInput := by
      intro waits
      obtain ⟨id, prompt, fields, ended, here⟩ := posed.input_iff.mp waits
      exact elsewhere id prompt fields ended here
    refine ⟨fun admits => status admits.1, ?_⟩
    unfold refusal
    split <;> exact .noInput status
  | unanswered waits form lacks =>
    have status := posed.input_iff.mpr ⟨_, _, _, _, waits⟩
    rw [missingFields_eq waits] at lacks ⊢
    refine ⟨?_, .unanswered status form⟩
    rintro ⟨-, entries, form', complete⟩
    cases form.symm.trans form'
    exact lacks (unanswered_eq_nil.mpr complete)
  | noCall elsewhere =>
    have status : s.status ≠ .awaitingCall := by
      intro waits
      obtain ⟨id, name, response, ended, here⟩ := posed.call_iff.mp waits
      exact elsewhere id name response ended here
    refine ⟨fun admits => status admits.1, ?_⟩
    unfold refusal
    split <;> exact .noCall status
  | payload waits named loose =>
    have plain : ¬Value.Structured _ := fun structured => by
      cases loose.symm.trans ((Value.isStructured_iff _).mpr structured)
    exact ⟨fun admits => plain admits.2, .payload (posed.call_iff.mpr ⟨_, _, _, _, waits⟩) plain⟩
  | noHistory empty => exact ⟨fun admits => admits empty, .noHistory empty⟩

theorem back_departs {snapshot : Snapshot} {rest : List Snapshot}
    (saved : s.history = snapshot :: rest) : ∃ d, s.Departs .goBack d ∧
      d.context = snapshot.context ∧ d.history = rest :=
  ⟨_, @Departs.back s snapshot rest "" saved, rfl, rfl⟩

theorem reset_departs {now : Instant} {document : Data} {o : Outcome}
    (h : s.perform (.reset now document) = .ok o) :
    ∃ nodes, s.Departs (.reset now document) (fresh s.settings now nodes []) := by
  by_cases same : document = .null
  · exact ⟨_, .reset (.inl ⟨same, rfl⟩)⟩
  · cases read : readWorkflow document with
    | ok nodes => exact ⟨_, .reset (.inr read)⟩
    | error e => simp [perform, resetTo, read, Except.map] at h

theorem choice_of_returns (returns : s.perform c = .ok (some (s', .ok r))) :
    (∃ p, s.Rejects c p) ∨ ∃ d, s.Departs c d := by
  cases c with
  | answer a =>
    obtain rejects | departs | ⟨e, raised⟩ := take_choice s a
    · exact .inl rejects
    · exact .inr departs
    · cases (Except.ok.inj returns).symm.trans raised
  | goBack =>
    cases saved : s.history with
    | nil => exact .inl ⟨_, .noHistory saved⟩
    | cons snapshot rest =>
      obtain ⟨d, departs, -⟩ := back_departs saved
      exact .inr ⟨d, departs⟩
  | reset now document =>
    obtain ⟨nodes, departs⟩ := reset_departs returns
    exact .inr ⟨_, departs⟩

theorem Posed.accepted_of_departs (posed : s.Posed) (departs : s.Departs c d)
    (returns : s.perform c = .ok (some (s', .ok r))) : r.refused = false := by
  obtain ⟨d', performed, same⟩ := departs.perform_eq
  have clean : d'.error = none :=
    (mk.inj same).2.2.2.2.2.2.1.trans (posed.departs_clean departs)
  exact accepted_of_walk clean (Except.ok.inj (performed.symm.trans returns))

/-- Behind any sequence of calls, a call that returns is accepted just when it comes with what it
must come with, and otherwise it is refused for its reason and changes nothing. -/
theorem accepted_iff_admits (driven : Driven settings s)
    (returns : s.perform c = .ok (some (s', .ok r))) :
    (r.refused = false ↔ s.Admits c) ∧
      (r.refused = true → s' = s ∧ ∃ code missing, s.Refuses c code missing ∧
        r.Reports code missing) := by
  have posed := driven.posed
  obtain ⟨p, rejects⟩ | ⟨d, departs⟩ := choice_of_returns returns
  · obtain ⟨unadmitted, refuses⟩ := posed.refuses_of_rejects rejects
    cases returns.symm.trans rejects.perform_eq
    have refused : Reply.refused ⟨false, s.status, s.current, some (p.report none)⟩ = true := by
      simp [Reply.refused, Problem.report, rejects.mild]
    refine ⟨⟨fun accepted => ?_, fun admits => absurd admits unadmitted⟩,
      fun _ => ⟨rfl, _, _, refuses, rfl, _, rfl, rfl, rfl⟩⟩
    cases refused.symm.trans accepted
  · have accepted := posed.accepted_of_departs departs returns
    have admits := posed.admits_of_departs departs
    refine ⟨⟨fun _ => admits, fun _ => accepted⟩, fun refused => ?_⟩
    cases refused.symm.trans accepted

end Simulation

namespace Sample

def field (name : String) (attributes : Entries Unit) : Data :=
  .ofEntries [(.text "name", .text name), (.text "attributes", .ofEntries attributes)]

def questions : Data :=
  .ofList [node "user_interaction" [(.text "fields", .ofList [field "name" [],
    field "note" [(.text "optional", .bool true)], field "age" []])]]

def blanks : Answer :=
  .values (.ofEntries [(.text "age", .null), (.text "name", .text ""), (.text "note", .null)])

end Sample

open Sample in
theorem Simulation.accepted_iff_admits_blanks : ∃ s s' r, Driven {} s ∧
    s.perform (.answer blanks) = .ok (some (s', .ok r)) ∧
    r.error.map StepError.missing = some ["name", "age"] ∧ ¬s.Admits (.answer blanks) ∧ s' = s ∧
    ∃ code missing, s.Refuses (.answer blanks) code missing ∧ r.Reports code missing := by
  have led : (begin? {} noon questions).any (fun s => (s.take blanks).any fun o =>
      o.2.toOption.any fun r => r.refused && r.error.map StepError.missing == some ["name", "age"]) =
        true := by decide +kernel
  obtain ⟨s, begun, asked⟩ := (Option.any_eq_true _ _).mp led
  obtain ⟨⟨s', result⟩, taken, told⟩ := (Option.any_eq_true _ _).mp asked
  obtain ⟨start, begun⟩ := begin?_eq_some begun
  cases result with
  | error e => cases told
  | ok r =>
    obtain ⟨refused, missing⟩ : r.refused = true ∧
        r.error.map StepError.missing = some ["name", "age"] := by
      simpa [Except.toOption] using told
    have driven : Driven {} s := .created begun
    have returns : s.perform (.answer blanks) = .ok (some (s', .ok r)) := congrArg Except.ok taken
    obtain ⟨verdict, refusal⟩ := accepted_iff_admits driven returns
    obtain ⟨same, reports⟩ := refusal refused
    refine ⟨s, s', r, driven, returns, missing, fun admits => ?_, same, reports⟩
    cases refused.symm.trans (verdict.mpr admits)

end Walkthrough
