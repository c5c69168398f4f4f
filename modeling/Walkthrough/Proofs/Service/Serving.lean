import Walkthrough.Proofs.Service.Task

/-! Serving requests. The clock is read once for each of them. A request does to the sessions of a
service one of three things: nothing, the work of a tool in the session that it names, or a start.
So it leaves every other session as it is, or costs it its place, and a place that is lost is lost
for good. -/
namespace Walkthrough

namespace Service

def serve (v : Service) (r : Request) : Answer := (v.timed r.now).call r.tool r.arguments

def serveAll (v : Service) : List Request → Service × List (Except ToolFailure Response)
  | [] => (v, [])
  | r :: requests =>
    let (w, answer) := v.serve r
    let (last, answers) := w.serveAll requests
    (last, answer :: answers)

variable {v w : Service} {r : Request} {session : String} {values : List Data}
  {store : Store Simulation}

/-! ## Starts -/

/-- The simulation that a workflow begins with, or the answer without one. -/
def begun (v : Service) (workflow : Data) : Except (Except ToolFailure Response) Simulation :=
  match v.workflowOf workflow with
  | .error e => .error (.error e)
  | .ok (.error c) => .error (.ok (.state { session := .text "", complaint := some c }))
  | .ok (.ok nodes) =>
    match Simulation.create v.settings v.now nodes with
    | none => .error (.error .endless)
    | some (_, .error e) => .error (.error (.escape e))
    | some (s, .ok _) => .ok s

theorem startSession_eq (v : Service) (workflow : Data) : v.startSession workflow =
    match v.begun workflow with
    | .error answer => (v, answer)
    | .ok s =>
      match v.store.create s with
      | none => (v, .error .noRoom)
      | some (session, store) => ({ v with store := store }, describeState session s) := by
  simp only [startSession, begun]
  cases v.workflowOf workflow with
  | error e => rfl
  | ok read =>
    cases read with
    | error c => rfl
    | ok nodes =>
      cases made : Simulation.create v.settings v.now nodes with
      | none => simp only [made]
      | some r =>
        obtain ⟨s, e | reply⟩ := r
        · simp only [made]
        · cases created : v.store.create s <;> simp only [made, created]

theorem begun_timed (settings : v.settings = w.settings) (folder : v.folder = w.folder)
    (now : Instant) (workflow : Data) :
    (v.timed now).begun workflow = (w.timed now).begun workflow := by
  simp only [begun, workflowOf, timed, settings, folder]

theorem startSession_cases (v : Service) (workflow : Data) :
    (∃ answer, v.startSession workflow = (v, answer)) ∨
      ∃ s name store, v.begun workflow = .ok s ∧ v.store.create s = some (name, store) ∧
        v.startSession workflow = ({ v with store := store }, describeState name s) := by
  rw [startSession_eq]
  cases v.begun workflow with
  | error answer => exact .inl ⟨answer, rfl⟩
  | ok s =>
    cases created : v.store.create s with
    | none => exact .inl ⟨.error .noRoom, by simp only [created]⟩
    | some made => exact .inr ⟨s, made.1, made.2, rfl, created, by simp only [created]⟩

/-! ## Requests -/

theorem call_refused {tool : Tool} {arguments : Entries Unit} {e : CallError}
    (refused : receive tool.parameters [] arguments = .error e) :
    v.call tool arguments = (v, .error (.call e)) := by
  rw [call, refused]

theorem call_received {tool : Tool} {arguments : Entries Unit}
    (received : receive tool.parameters [] arguments = .ok values) :
    v.call tool arguments = v.perform tool values := by
  rw [call, received]

/-- What serving a request comes to: nothing that the store notices, work in the session that is
named, or a start. -/
inductive Serves (v : Service) (r : Request) : Answer → Prop where
  | idle (answer : Except ToolFailure Response) : v.Serves r (v, answer)
  | named {session : String} (t : Task) (named : r.session? = some session) :
    v.Serves r (t.run v session)
  | started {workflow : Data} (start : r.tool = .start)
    (received : receive Tool.start.parameters [] r.arguments = .ok [workflow]) :
    v.Serves r (v.startSession workflow)

theorem serves (r : Request) (nameless : v.store.find? "" = none) :
    (v.timed r.now).Serves r (v.serve r) := by
  rw [serve]
  cases received : receive r.tool.parameters [] r.arguments with
  | error e =>
    rw [call_refused received]
    exact .idle _
  | ok values =>
    obtain ⟨size, same⟩ := receive_session received
    rw [call_received received]
    by_cases start : r.tool = .start
    · rw [start] at size received ⊢
      obtain ⟨workflow, rfl⟩ := List.length_eq_one_iff.mp size
      exact .started start received
    · by_cases named : ∃ session,
          r.arguments.field? "session_id" = some (.text session) ∧ session ≠ ""
      · obtain ⟨session, given, text⟩ := named
        have run := Task.perform_eq_run start size text (v.timed r.now)
        rw [given, Option.getD_some] at same
        rw [same] at run
        rw [run]
        exact .named _ (Request.session?_eq_some.mpr given)
      · -- the void text is a name as well, but no session has it
        have unnamed (session : String)
            (given : (r.arguments.field? "session_id").getD .null = .text session) :
            (v.timed r.now).store.find? session = none := by
          have there : r.arguments.field? "session_id" = some (.text session) := by
            cases here : r.arguments.field? "session_id" with
            | none => simp [here] at given
            | some w => exact congrArg some (by simpa [here] using given)
          have void : session = "" := not_not.mp fun text => named ⟨session, there, text⟩
          exact void ▸ nameless
        have idle : ((v.timed r.now).perform r.tool values).1 = v.timed r.now :=
          same ▸ Task.perform_unnamed start size unnamed
        rw [← Prod.eta ((v.timed r.now).perform r.tool values), idle]
        exact .idle _

inductive Leaves (v : Service) (r : Request) : Store Simulation → Prop where
  | same : v.Leaves r v.store
  | touched {name : String} {store : Store Simulation} (named : r.session? = some name)
    (touched : v.store.Touched name store) : v.Leaves r store
  | created {workflow : Data} {s : Simulation} {name : String} {store : Store Simulation}
    (start : r.tool = .start)
    (received : receive Tool.start.parameters [] r.arguments = .ok [workflow])
    (begun : (v.timed r.now).begun workflow = .ok s)
    (created : v.store.create s = some (name, store)) : v.Leaves r store

/-- A service in which a name means one session, and every name is a text with something in it. -/
structure Sound (v : Service) : Prop where
  store : v.store.Sound
  named : ∀ n, v.store.naming n ≠ ""

theorem Sound.nonempty (sound : v.Sound) {name : String} (given : v.store.Given name) :
    name ≠ "" := by
  obtain ⟨n, -, -, rfl⟩ := given
  exact sound.named n

theorem Sound.nameless (sound : v.Sound) : v.store.find? "" = none := by
  rw [Store.find?_eq_none_iff]
  intro inside
  exact sound.nonempty (sound.store.given _ inside) rfl

theorem Sound.given (sound : v.Sound) {s : Simulation} (found : v.store.find? session = some s) :
    v.store.Given session :=
  sound.store.given _ (Store.mem_names_of_mem (Store.mem_of_find? found))

theorem serve_leaves (sound : v.Sound) (r : Request) : ∃ store, v.Leaves r store ∧
    (v.serve r).1 = { v with now := r.now, store := store } := by
  obtain ⟨a, same⟩ : ∃ a, a = v.serve r := ⟨_, rfl⟩
  have serves := serves r sound.nameless
  rw [← same] at serves ⊢
  cases serves with
  | idle _ => exact ⟨v.store, .same, rfl⟩
  | @named name t named =>
    obtain ⟨store, after, touched⟩ := Task.run_touched t (v.timed r.now) name
    exact ⟨store, .touched named touched, after⟩
  | @started workflow start received =>
    rcases startSession_cases (v.timed r.now) workflow with
      ⟨answer, idle⟩ | ⟨s, name, store, begun, created, begins⟩
    · exact ⟨v.store, .same, congrArg Prod.fst idle⟩
    · exact ⟨store, .created start received begun created, congrArg Prod.fst begins⟩

theorem serve_started {workflow : Data} {s : Simulation} (start : r.tool = .start)
    (received : receive Tool.start.parameters [] r.arguments = .ok [workflow])
    (begun : (v.timed r.now).begun workflow = .ok s)
    (created : v.store.create s = some (session, store)) :
    v.serve r = ({ v with now := r.now, store := store }, describeState session s) := by
  have startSession : v.serve r = (v.timed r.now).startSession workflow := by
    rw [serve, start, call_received received]
    rfl
  have here : (v.timed r.now).store.create s = some (session, store) := created
  rw [startSession, startSession_eq]
  simp only [begun, here]
  rfl

/-! ## What stays -/

theorem Leaves.sound (leaves : v.Leaves r store) (sound : v.Sound) : store.Sound := by
  cases leaves with
  | same => exact sound.store
  | touched _ touched => exact touched.sound sound.store
  | created _ _ _ created => exact sound.store.create created

theorem Leaves.kept (leaves : v.Leaves r store) :
    store.capacity = v.store.capacity ∧ store.naming = v.store.naming := by
  cases leaves with
  | same => exact ⟨rfl, rfl⟩
  | touched _ touched => exact ⟨touched.keeps.1, touched.keeps.2.2⟩
  | created _ _ _ created =>
    obtain ⟨-, -, -, rfl⟩ := Store.create_eq_some.mp created
    exact ⟨rfl, rfl⟩

theorem Leaves.given (leaves : v.Leaves r store) (given : v.store.Given session) :
    store.Given session := by
  obtain ⟨n, first, le, same⟩ := given
  cases leaves with
  | same => exact ⟨n, first, le, same⟩
  | touched _ touched => exact ⟨n, first, touched.keeps.2.1 ▸ le, touched.keeps.2.2 ▸ same⟩
  | created _ _ _ created =>
    obtain ⟨-, -, -, rfl⟩ := Store.create_eq_some.mp created
    exact ⟨n, first, Nat.le_succ_of_le le, same⟩

theorem kept_serve (sound : v.Sound) (r : Request) : (v.serve r).1.settings = v.settings ∧
    (v.serve r).1.folder = v.folder ∧ (v.serve r).1.store.capacity = v.store.capacity ∧
    (v.serve r).1.store.naming = v.store.naming := by
  obtain ⟨store, leaves, after⟩ := serve_leaves sound r
  rw [after]
  exact ⟨rfl, rfl, leaves.kept⟩

theorem given_serve (sound : v.Sound) (r : Request) (given : v.store.Given session) :
    (v.serve r).1.store.Given session := by
  obtain ⟨store, leaves, after⟩ := serve_leaves sound r
  rw [after]
  exact leaves.given given

theorem Sound.serve (sound : v.Sound) (r : Request) : (v.serve r).1.Sound := by
  obtain ⟨store, leaves, after⟩ := serve_leaves sound r
  rw [after]
  exact ⟨leaves.sound sound, leaves.kept.2 ▸ sound.named⟩

theorem Sound.serveAll (sound : v.Sound) (requests : List Request) :
    (v.serveAll requests).1.Sound := by
  induction requests generalizing v with
  | nil => exact sound
  | cons r requests ih => exact ih (sound.serve r)

theorem sound_startWith {naming : Nat → String} (settings : Settings) (folder : Folder)
    (now : Instant) (distinct : Function.Injective naming) (named : ∀ n, naming n ≠ "") :
    (startWith naming settings folder now).Sound :=
  ⟨Store.sound_emptyWith distinct _, named⟩

/-! ## Other sessions -/

/-- A request about another session leaves a session as it is, or costs it its place. -/
theorem find?_serve (sound : v.Sound) (given : v.store.Given session)
    (unnamed : r.session? ≠ some session) :
    (v.serve r).1.store.find? session = v.store.find? session ∨
      (v.serve r).1.store.find? session = none := by
  obtain ⟨store, leaves, after⟩ := serve_leaves sound r
  rw [after]
  cases leaves with
  | same => exact .inl rfl
  | @touched name _ named touched =>
    have apart : session ≠ name := fun same => unnamed (same ▸ named)
    exact .inl (touched.find?_other apart)
  | @created _ s name _ _ _ _ created =>
    have apart : session ≠ name := fun same => sound.store.not_given created (same ▸ given)
    obtain ⟨rfl, kept, keeps, rfl⟩ := Store.create_eq_some.mp created
    rw [Store.find?_create sound.store keeps s _ session, if_neg apart]
    exact keeps.find? sound.store session

/-- To name a session that is not there changes nothing. -/
theorem store_serve (sound : v.Sound) (named : r.session? = some session)
    (absent : v.store.find? session = none) : (v.serve r).1.store = v.store := by
  obtain ⟨store, leaves, after⟩ := serve_leaves sound r
  rw [after]
  cases leaves with
  | same => rfl
  | touched here touched =>
    cases named.symm.trans here
    exact touched.eq_of_absent absent
  | created _ received _ _ => exact absurd named (Request.session?_of_start received session)

/-- A session that has lost its place does not come back. -/
theorem lost_serve (sound : v.Sound) (given : v.store.Given session)
    (lost : v.store.find? session = none) (r : Request) :
    (v.serve r).1.store.find? session = none := by
  by_cases named : r.session? = some session
  · rw [store_serve sound named lost]
    exact lost
  · rcases find?_serve sound given named with same | gone
    · exact same.trans lost
    · exact gone

theorem lost_serveAll (sound : v.Sound) (given : v.store.Given session)
    (lost : v.store.find? session = none) (requests : List Request) :
    (v.serveAll requests).1.store.find? session = none := by
  induction requests generalizing v with
  | nil => exact lost
  | cons r requests ih =>
    exact ih (sound.serve r) (given_serve sound r given) (lost_serve sound given lost r)

end Service

end Walkthrough
