import Walkthrough.Proofs.Service.Serving
import Walkthrough.Proofs.Simulation.Memory
import Walkthrough.Proofs.Workflow.Fence

/-! Payloads that are given as text. Whatever has been asked of a service, its sessions stand where
calls lead to. At a call, a payload is stored for what its text means if there is no fence in the
text. A fence inside of a string makes the rest of the string the payload. -/
namespace Walkthrough

open Json

namespace Service

def Posed (v : Service) : Prop := ∀ entry ∈ v.store.sessions, entry.2.Posed

/-- A response is stored in the session and the state before it is saved. What is answered complains
of nothing but a step that failed behind the call. -/
structure Stores (a : Answer) (session : String) (s : Simulation) (stored : String)
    (value : Data) : Prop where
  kept : ∃ s', a.1.store.find? session = some s' ∧
    s'.context = s.context.withResponse stored value ∧ s'.history = ⟨s.stack, s.context⟩ :: s.history
  told : ∀ x c, a.2 = .ok (.state x) → x.complaint = some c → ∃ e, c = .step e ∧ e.kind.fatal = true

variable {v w : Service} {session name stored : String} {s : Simulation} {o : Outcome}
  {given payload value : Data} {t : String} {r : Request}

/-! ## What calls lead to -/

theorem Posed.keep (posed : v.Posed) (leads : ∀ s result, o = some (s, result) → s.Posed) :
    (v.keep session o).1.Posed := by
  unfold Service.keep
  split
  · exact posed
  · rename_i s result
    intro entry inside
    obtain ⟨old, there, same⟩ := List.mem_map.mp inside
    split at same
    · cases same
      exact leads s result rfl
    · exact same ▸ posed old there

theorem Posed.onSession {missing : Complaint → Response} {work : Service → String → Simulation → Answer}
    (posed : v.Posed) (works : ∀ w session s, w.Posed → s.Posed → (work w session s).1.Posed)
    (name : Data) : (v.onSession name missing work).1.Posed := by
  unfold Service.onSession
  split
  · exact posed
  · split <;> exact posed
  · rename_i session s w looked
    unfold session? at looked
    split at looked
    · obtain ⟨⟨s', store⟩, used, same⟩ := Option.map_eq_some_iff.mp (Except.ok.inj looked)
      cases same
      obtain ⟨found, rfl⟩ := Store.get_eq_some.mp used
      have own := posed _ (Store.mem_of_find? found)
      refine works _ _ _ (List.forall_mem_append.mpr ⟨fun entry inside => ?_, ?_⟩) own
      · exact posed entry (Store.mem_without.mp inside).1
      · simpa using own
    · cases looked
    · cases looked

theorem posed_of_begun {workflow : Data} (begun : v.begun workflow = .ok s) : s.Posed := by
  unfold Service.begun at begun
  split at begun
  · cases begun
  · cases begun
  · rename_i nodes _
    split at begun
    · cases begun
    · cases begun
    · rename_i s r made
      cases begun
      obtain ⟨log, walked⟩ := Simulation.reset_eq
        ⟨v.settings, nodes, .ofWorkflow nodes, .empty v.now, [], .running, none, []⟩ v.now none
      exact Simulation.posed_of_walk rfl (walked.symm.trans made)

theorem Posed.startSession (posed : v.Posed) (workflow : Data) :
    (v.startSession workflow).1.Posed := by
  obtain ⟨answer, same⟩ | ⟨s, name, store, begun, created, same⟩ := startSession_cases v workflow
  · rw [same]
    exact posed
  · rw [same]
    have own := posed_of_begun begun
    obtain ⟨-, kept, keeps, rfl⟩ := Store.create_eq_some.mp created
    refine List.forall_mem_append.mpr ⟨fun entry inside => ?_, by simpa using own⟩
    exact posed entry (keeps.sublist.subset inside)

theorem Posed.onKeep {operation : Service → Simulation → Outcome} (posed : v.Posed)
    (leads : ∀ w s s' result, s.Posed → operation w s = some (s', result) → s'.Posed)
    (name : Data) : (v.onState name fun v session s => v.keep session (operation v s)).1.Posed :=
  posed.onSession (fun w _ s here own => here.keep fun _ _ => leads w s _ _ own) name

theorem Posed.submitResponse (posed : v.Posed) (name payload given : Data) :
    (v.submitResponse name payload given).1.Posed := by
  refine posed.onSession (fun w session s here own => ?_) name
  split
  · exact here
  · exact here
  · rename_i payload _
    exact here.keep fun s' result led =>
      Simulation.posed_of_perform (c := .answer (.response given payload)) own (congrArg Except.ok led)

theorem Posed.perform (posed : v.Posed) (tool : Tool) (values : List Data) :
    (v.perform tool values).1.Posed := by
  fun_cases Service.perform v tool values with
  | case1 workflow => exact posed.startSession workflow
  | case2 name => exact posed.onSession (fun _ _ _ here _ => here) name
  | case3 name values =>
    exact posed.onKeep (fun _ _ _ _ own led =>
      Simulation.posed_of_perform (c := .answer (.values values)) own (congrArg Except.ok led)) name
  | case4 name payload given => exact posed.submitResponse name payload given
  | case5 name =>
    exact posed.onKeep (fun _ _ _ _ own led =>
      Simulation.posed_of_perform (c := .goBack) own (congrArg Except.ok led)) name
  | case6 name =>
    exact posed.onKeep (fun w _ _ _ own led =>
      Simulation.posed_of_perform (c := .reset w.now .null) own (congrArg Except.ok led)) name
  | case7 name =>
    refine posed.onSession (fun w _ s here _ => ?_) name
    split
    · split <;> exact here
    · exact here
  | case8 name =>
    refine posed.onSession (fun w _ s here _ => ?_) name
    split <;> exact here
  | case9 | case10 =>
    unfold Service.inContext
    split
    · exact posed
    · exact posed.onSession (fun _ _ _ here _ => here) _
  | case11 => exact posed

theorem Posed.serve (posed : v.Posed) (r : Request) : (v.serve r).1.Posed := by
  unfold Service.serve Service.call
  have timed : (v.timed r.now).Posed := posed
  split
  · exact timed
  · exact timed.perform _ _

theorem Posed.serveAll (posed : v.Posed) (requests : List Request) :
    (v.serveAll requests).1.Posed := by
  induction requests generalizing v with
  | nil => exact posed
  | cons r requests ih => exact ih (posed.serve r)

theorem posed_startWith (naming : Nat → String) (settings : Settings) (folder : Folder)
    (now : Instant) : (startWith naming settings folder now).Posed := List.forall_mem_nil _

theorem Posed.find? (posed : v.Posed) (found : v.store.find? session = some s) : s.Posed :=
  posed _ (Store.mem_of_find? found)

/-! ## Responses -/

theorem eq_of_withResponse {c : Context}
    (same : c.withResponse stored payload = c.withResponse stored value) : payload = value := by
  have both := congrArg (fun c => c.responses.field? stored) same
  simpa [Context.withResponse, Entries.field?_insert] using both

/-- Only one value is stored. -/
theorem Stores.unique {a : Answer} (first : Stores a session s stored payload)
    (second : Stores a session s stored value) : payload = value := by
  obtain ⟨⟨s', there, context, -⟩, -⟩ := first
  obtain ⟨⟨s'', there', context', -⟩, -⟩ := second
  cases there.symm.trans there'
  exact eq_of_withResponse (context.symm.trans context')

/-- The history tells whether anything has been stored. -/
theorem not_stores_of_same {a : Answer} (same : a.1.store.find? session = some s) :
    ¬Stores a session s stored value := by
  rintro ⟨⟨s', there, -, history⟩, -⟩
  cases same.symm.trans there
  exact List.cons_ne_self _ _ history.symm

theorem complaint_of_describe {complaint : Option Complaint} {x : StateResponse}
    (told : describe session s complaint = .ok (.state x)) : x.complaint = complaint := by
  unfold describe at told
  split at told <;> cases told <;> rfl

theorem stores_keep_iff {id : String} {call response : Data} {ended : Bool} (posed : s.Posed)
    (waits : s.current = .node (.call id call response ended))
    (named : Simulation.responseName given call response = .ok stored)
    (found : w.store.find? session = some s) :
    Stores (w.keep session (s.respond given payload)) session s stored value ↔
      payload = value ∧ value.Structured ∧ (s.respond given value).isSome := by
  cases structured : payload.isStructured with
  | false =>
    have rejects := (Simulation.Rejects.payload waits named structured).perform_eq
    have refused : s.respond given payload = s.reject (.malformedPayload stored) :=
      Except.ok.inj rejects
    rw [refused]
    constructor
    · intro stores
      refine absurd stores (not_stores_of_same ?_)
      exact (Store.find?_put _ session s session).trans (by rw [if_pos rfl, found, Option.map_some])
    · rintro ⟨rfl, plain, -⟩
      cases structured.symm.trans ((Value.isStructured_iff _).mpr plain)
  | true =>
    have plain := (Value.isStructured_iff _).mp structured
    have departs : s.Departs (.answer (.response given payload))
        (s.past "" (s.context.withResponse stored payload)) := .response waits named structured
    cases returns : s.respond given payload with
    | none =>
      constructor
      · intro stores
        exact absurd stores (not_stores_of_same found)
      · rintro ⟨rfl, -, some_⟩
        rw [returns] at some_
        cases some_
    | some o =>
      obtain ⟨s', result⟩ := o
      have led : s.perform (.answer (.response given payload)) = .ok (some (s', result)) :=
        congrArg Except.ok returns
      obtain ⟨-, context, history⟩ := posed.after departs led
      have there : (w.keep session (some (s', result))).1.store.find? session = some s' :=
        (Store.find?_put _ session s' session).trans (by rw [if_pos rfl, found, Option.map_some])
      constructor
      · rintro ⟨⟨s'', there', context', -⟩, -⟩
        cases there.symm.trans there'
        have same : payload = value := eq_of_withResponse (context.symm.trans context')
        exact ⟨same, same ▸ plain, by rw [← same, returns]; rfl⟩
      · rintro ⟨rfl, -, -⟩
        refine ⟨⟨s', there, context, history⟩, fun x c told complains => ?_⟩
        cases result with
        | error e => cases told
        | ok reply =>
          have accepted := posed.accepted_of_departs departs led
          rw [complaint_of_describe told, Option.map_eq_some_iff] at complains
          obtain ⟨e, failed, rfl⟩ := complains
          refine ⟨e, rfl, ?_⟩
          simpa [Reply.refused, failed] using accepted

theorem payloadOf_text_eq_ok :
    payloadOf (.text t) = .ok (.ok payload) ↔
      read? (jsonBlock t) = some payload ∧ payload.Structured := by
  rw [payloadOf, parsePayload, bind_eq_ok, ← read_eq_some, ← Value.isStructured_iff]
  constructor
  · rintro ⟨_ | v, reads, kept⟩
    · cases kept
    · by_cases structured : v.isStructured = true
      · simp only [structured, if_true] at kept
        cases kept
        exact ⟨reads, structured⟩
      · simp only [structured, Bool.false_eq_true, if_false] at kept
        cases kept
  · rintro ⟨reads, structured⟩
    exact ⟨some payload, reads, by simp only [structured, if_true]; rfl⟩

theorem serve_submit (tool : r.tool = .submitResponse)
    (received : receive Tool.submitResponse.parameters [] r.arguments =
      .ok [.text session, payload, given])
    (found : v.store.find? session = some s) :
    ∃ w, w.store.find? session = some s ∧ v.serve r =
      match payloadOf payload with
      | .error f => (w, .error (.escape (.fault f)))
      | .ok (.error e) => (w, describe session s (some (.payload e)))
      | .ok (.ok payload) => w.keep session (s.respond given payload) := by
  obtain ⟨store, used⟩ : ∃ store, v.store.get session = some (s, store) :=
    ⟨_, Store.get_eq_some.mpr ⟨found, rfl⟩⟩
  refine ⟨{ v.timed r.now with store := store }, (Store.find?_get used session).trans found, ?_⟩
  rw [serve, tool, call_received received]
  have looked : (v.timed r.now).session? (.text session) =
      .ok (some (session, s, { v.timed r.now with store := store })) :=
    congrArg (fun found => Except.ok (Option.map _ found)) used
  rewrite [perform, submitResponse, onState, onSession, looked]
  rfl

theorem stores_text_iff {id : String} {call response : Data} {ended : Bool} (posed : s.Posed)
    (waits : s.current = .node (.call id call response ended))
    (named : Simulation.responseName given call response = .ok stored)
    (found : v.store.find? session = some s) (tool : r.tool = .submitResponse)
    (received : receive Tool.submitResponse.parameters [] r.arguments =
      .ok [.text session, .text t, given]) (structured : value.Structured)
    (returns : (s.respond given value).isSome) :
    Stores (v.serve r) session s stored value ↔ read? (jsonBlock t) = some value := by
  obtain ⟨w, there, served⟩ := serve_submit tool received found
  rw [served]
  by_cases meant : ∃ payload, payloadOf (.text t) = .ok (.ok payload)
  · obtain ⟨payload, meant⟩ := meant
    obtain ⟨reads, -⟩ := payloadOf_text_eq_ok.mp meant
    rw [meant, reads]
    dsimp only
    rw [stores_keep_iff posed waits named there]
    simp [structured, returns]
  · -- what is not understood is not stored, and not read either
    refine iff_of_false ?_ fun reads =>
      meant ⟨value, payloadOf_text_eq_ok.mpr ⟨reads, structured⟩⟩
    split
    · exact not_stores_of_same there
    · exact not_stores_of_same there
    · rename_i payload understood
      exact absurd ⟨payload, understood⟩ meant

/-- At a call, the text of a payload stands for what it means just when its block, if there is a
fence in it, means the same. -/
theorem stores_payload_text {naming : Nat → String} {settings : Settings} {folder : Folder}
    {now : Instant} {requests : List Request} {id : String} {call response : Data} {ended : Bool}
    (found : ((startWith naming settings folder now).serveAll requests).1.store.find? session =
      some s)
    (waits : s.current = .node (.call id call response ended))
    (named : Simulation.responseName given call response = .ok stored)
    (tool : r.tool = .submitResponse)
    (received : receive Tool.submitResponse.parameters [] r.arguments =
      .ok [.text session, .text t, given])
    (reads : read? t = some value) (structured : value.Structured)
    (returns : (s.respond given value).isSome) :
    let answer := ((startWith naming settings folder now).serveAll requests).1.serve r
    (¬fence <:+: t.toList → jsonBlock t = t ∧ Stores answer session s stored value) ∧
    (fence <:+: t.toList → jsonBlock t ≠ t ∧
      (Stores answer session s stored value ↔ read? (jsonBlock t) = some value) ∧
      (Stores answer session s stored value → ∃ ts token text, tokens? t.toList = some ts ∧
        token ∈ ts ∧ token.text? = some text ∧ '\x60' ∈ text.toList ∧ text ∉ value.texts)) := by
  intro answer
  have posed := ((posed_startWith naming settings folder now).serveAll requests).find? found
  have stores : Stores answer session s stored value ↔ read? (jsonBlock t) = some value :=
    stores_text_iff posed waits named found tool received structured returns
  constructor
  · intro unfenced
    have same := jsonBlock_eq_iff.mpr unfenced
    exact ⟨same, stores.mpr (by rw [same, reads])⟩
  · intro fenced
    refine ⟨fun same => jsonBlock_eq_iff.mp same fenced, stores, fun takes => ?_⟩
    obtain ⟨ts, tokens, -⟩ := Option.bind_eq_some_iff.mp reads
    obtain ⟨token, written, text, lost⟩ := exists_lost tokens fenced (stores.mp takes)
    exact ⟨ts, token, text, tokens, written, lost⟩

end Service

namespace Sample

def errand : Data := .ofList [node "api_call" [(.text "response_var", .text "found")]]

/-- A service at which a call waits. -/
def office : Service :=
  ((Service.startWith Store.sessionName {} ⟨.ofText "", []⟩ noon).serveAll
    [⟨noon, .start, [(.text "workflow", errand)]⟩]).1

def deliver (payload : String) : Request :=
  ⟨noon, .submitResponse, [(.text "session_id", .text "S1"), (.text "payload", .text payload)]⟩

/-- A call waits, and a response to it has a name and leads somewhere. -/
def Expects (value : Data) (s : Simulation) : Bool :=
  match s.current with
  | .node (.call _ call response _) =>
    (Simulation.responseName .null call response).toOption == some "found" &&
      (s.respond .null value).isSome
  | _ => false

theorem office_waits {value : Data} (led : (office.store.find? "S1").any (Expects value) = true) :
    ∃ s id call response ended, office.store.find? "S1" = some s ∧
      s.current = .node (.call id call response ended) ∧
      Simulation.responseName .null call response = .ok "found" ∧
      (s.respond .null value).isSome := by
  obtain ⟨s, found, expects⟩ := (Option.any_eq_true _ _).mp led
  unfold Expects at expects
  split at expects
  · rename_i id call response ended waits
    obtain ⟨named, returns⟩ := (Bool.and_eq_true _ _).mp expects
    refine ⟨s, id, call, response, ended, found, waits, ?_, returns⟩
    cases same : Simulation.responseName .null call response with
    | error e => simp [same, Except.toOption] at named
    | ok stored => simpa [same, Except.toOption] using named
  · cases expects

end Sample

open Sample in
theorem Service.stores_payload_text_list : ∃ s, jsonBlock "[1]" = "[1]" ∧
    Stores (office.serve (deliver "[1]")) "S1" s "found" (.ofList [.int 1]) := by
  have plain : Value.Structured (.ofList [.int 1]) := .list (by simp [Value.Structured.int])
  have led : (office.store.find? "S1").any (Expects (.ofList [.int 1])) = true := by decide +kernel
  obtain ⟨s, id, call, response, ended, found, waits, named, returns⟩ := office_waits led
  have taken := stores_payload_text found waits named (r := deliver "[1]") rfl (by rfl) (t := "[1]")
    (by rfl) plain returns
  exact ⟨s, taken.1 (by decide)⟩

open Sample in
/-- A string between fences is lost: what stands between them is stored instead of it. -/
theorem Service.stores_between_fences : ∃ s id call response ended,
    office.store.find? "S1" = some s ∧ s.current = .node (.call id call response ended) ∧
    read? "\"```1```\"" = some (.text "```1```") ∧
    ¬Stores (office.serve (deliver "\"```1```\"")) "S1" s "found" (.text "```1```") ∧
    Stores (office.serve (deliver "\"```1```\"")) "S1" s "found" (.int 1) := by
  have led : (office.store.find? "S1").any (Expects (.int 1)) = true := by decide +kernel
  obtain ⟨s, id, call, response, ended, found, waits, named, returns⟩ := office_waits led
  have posed := ((posed_startWith Store.sessionName {} ⟨.ofText "", []⟩ noon).serveAll _).find? found
  have between : Stores (office.serve (deliver "\"```1```\"")) "S1" s "found" (.int 1) :=
    (stores_text_iff posed waits named found (r := deliver "\"```1```\"") rfl (by rfl) (.int 1)
      returns).mpr (by rfl)
  refine ⟨s, id, call, response, ended, found, waits, by rfl, fun stores => ?_, between⟩
  cases stores.unique between

end Walkthrough
