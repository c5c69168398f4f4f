import Walkthrough.Proofs.Service.Serving
import Walkthrough.Proofs.Simulation.Place

/-! Sessions do not influence each other. However the calls on any number of sessions follow one
another, a session that keeps its place is answered as if it were the only one: a service that gets
nothing but the call that starts it and the calls that name it answers the same, up to the name that
is generated. -/
namespace Walkthrough

namespace Service

/-- A session is there after a request, and was not there before. -/
def starts (v : Service) (session : String) (r : Request) : Bool :=
  (v.store.find? session).isNone && ((v.serve r).1.store.find? session).isSome

/-- The requests that name a session and the one that starts it, with their answers. -/
def concerning (session : String) (v : Service) :
    List Request → List (Request × Except ToolFailure Response)
  | [] => []
  | r :: requests =>
    let (w, answer) := v.serve r
    let later := concerning session w requests
    if r.session? = some session ∨ v.starts session r then (r, answer) :: later else later

/-- What is asked of a session under another name. -/
def asked (old new : String) (own : List (Request × Except ToolFailure Response)) : List Request :=
  own.map fun entry => entry.1.renamed old new

/-- What is answered for a session under another name. -/
def answered (old new : String) (own : List (Request × Except ToolFailure Response)) :
    List (Except ToolFailure Response) :=
  own.map fun entry => entry.2.map (·.renamed old new)

variable {v w : Service} {r : Request} {old new session : String}

/-- A session is served under one name as under another. -/
theorem serve_about (settings : v.settings = w.settings) (named : r.session? = some old)
    (text : old ≠ "") (text' : new ≠ "") (same : v.store.find? old = w.store.find? new) :
    (w.serve (r.about new)).2 = (v.serve r).2.map (·.renamed old new) ∧
      (w.serve (r.about new)).1.store.find? new = (v.serve r).1.store.find? old := by
  have given := Request.session?_eq_some.mp named
  have renamed := receive_insert given (.text new) r.tool.plain
  have about : w.serve (r.about new) = (w.timed r.now).call r.tool
      (r.arguments.insert (.text "session_id") (.text new)) := rfl
  rw [about, serve]
  cases received : receive r.tool.parameters [] r.arguments with
  | error e =>
    rw [received] at renamed
    rw [call_refused received, call_refused renamed]
    exact ⟨rfl, same.symm⟩
  | ok values =>
    have other : r.tool ≠ .start := by
      intro start
      exact Request.session?_of_start (start ▸ received) old named
    obtain ⟨size, self⟩ := receive_session received
    have here := Task.perform_eq_run other size text (v.timed r.now)
    have there := Task.perform_eq_run other size text' (w.timed r.now)
    have task := Task.ofTool_timed settings r.now r.tool values
    rw [given, Option.getD_some] at self
    rw [received] at renamed
    rw [call_received received, call_received renamed, there]
    rw [self, task] at here
    rw [here]
    exact Task.run_renamed (Task.uniform_ofTool _ _ _) same

/-- Where a session begins, a start has stored it under the name that was generated. -/
theorem starts_eq (sound : v.Sound) (starts : v.starts session r = true) :
    ∃ workflow s store, r.tool = .start ∧
      receive Tool.start.parameters [] r.arguments = .ok [workflow] ∧
      (v.timed r.now).begun workflow = .ok s ∧ v.store.create s = some (session, store) := by
  simp only [Service.starts, Bool.and_eq_true, Option.isNone_iff_eq_none] at starts
  obtain ⟨absent, present⟩ := starts
  obtain ⟨store, leaves, after⟩ := serve_leaves sound r
  rw [after] at present
  cases leaves with
  | same => simp [absent] at present
  | @touched name _ named touched =>
    by_cases here : session = name
    · subst here
      simp [touched.eq_of_absent absent, absent] at present
    · simp [touched.find?_other here, absent] at present
  | @created workflow s name _ start received begun created =>
    refine ⟨workflow, s, store, start, received, begun, ?_⟩
    by_cases here : session = name
    · rw [here]
      exact created
    · obtain ⟨rfl, kept, keeps, rfl⟩ := Store.create_eq_some.mp created
      rw [Store.find?_create sound.store keeps s _ session, if_neg here] at present
      rcases keeps.find? sound.store session with same | lost
      · simp [same, absent] at present
      · simp [lost] at present

/-! ## A session by itself -/

/-- Two services in which a session is the same, under different names. In the second one it is
alone, or still to come. -/
structure Alike (old new : String) (v w : Service) : Prop where
  left : v.Sound
  right : w.Sound
  settings : v.settings = w.settings
  folder : v.folder = w.folder
  capacity : v.store.capacity = w.store.capacity
  same : v.store.find? old = w.store.find? new
  next : w.store.naming 1 = new
  begun : v.store.Given old ∨ w.store.sessions = [] ∧ w.store.made = 0

theorem Alike.nonempty (alike : Alike old new v w) : new ≠ "" := alike.next ▸ alike.right.named 1

theorem Alike.serve (alike : Alike old new v w) {r r' : Request}
    (same : (v.serve r).1.store.find? old = (w.serve r').1.store.find? new)
    (begun : (v.serve r).1.store.Given old ∨ (w.serve r').1.store = w.store) :
    Alike old new (v.serve r).1 (w.serve r').1 := by
  obtain ⟨settings, folder, capacity, -⟩ := kept_serve alike.left r
  obtain ⟨settings', folder', capacity', naming'⟩ := kept_serve alike.right r'
  refine ⟨alike.left.serve r, alike.right.serve r', ?_, ?_, ?_, same, ?_, ?_⟩
  · rw [settings, settings', alike.settings]
  · rw [folder, folder', alike.folder]
  · rw [capacity, capacity', alike.capacity]
  · rw [naming', alike.next]
  · rcases begun with given | idle
    · exact .inl given
    · rw [idle]
      exact alike.begun.imp_left (given_serve alike.left r)

theorem Alike.named (alike : Alike old new v w) (text : old ≠ "") (named : r.session? = some old) :
    (w.serve (r.about new)).2 = (v.serve r).2.map (·.renamed old new) ∧
      Alike old new (v.serve r).1 (w.serve (r.about new)).1 := by
  obtain ⟨answer, same⟩ := serve_about alike.settings named text alike.nonempty alike.same
  refine ⟨answer, alike.serve same.symm ?_⟩
  rcases alike.begun with given | ⟨nothing, -⟩
  · exact .inl (given_serve alike.left r given)
  · have absent : w.store.find? new = none := by
      rw [Store.find?, nothing]
      rfl
    exact .inr (store_serve alike.right (r.session?_about new) absent)

theorem Alike.starts (alike : Alike old new v w) (starts : v.starts old r = true) :
    r.session? ≠ some old ∧ (w.serve r).2 = (v.serve r).2.map (·.renamed old new) ∧
      Alike old new (v.serve r).1 (w.serve r).1 := by
  obtain ⟨workflow, s, store, start, received, begun, created⟩ := starts_eq alike.left starts
  obtain ⟨nothing, unmade⟩ := alike.begun.resolve_left (alike.left.store.not_given created)
  have room : w.store.isFull = false := by
    rw [← Bool.not_eq_true, Store.isFull_iff]
    rintro ⟨most, limit, full⟩
    have room := alike.left.store.capacity_pos created (alike.capacity.trans limit)
    simp only [Store.count, nothing, List.length_nil] at full
    omega
  obtain ⟨name, store', created'⟩ := Store.exists_create (s := w.store) s fun full => by
    cases room.symm.trans full
  have first : name = new := by
    rw [(Store.create_eq_some.mp created').1, unmade]
    exact alike.next
  subst first
  have begun' := (begun_timed alike.settings alike.folder r.now workflow).symm.trans begun
  have here := serve_started start received begun created
  have there := serve_started start received begun' created'
  refine ⟨Request.session?_of_start received old, ?_, alike.serve ?_ (.inl ?_)⟩
  · rw [here, there, describeState, describeState, ← Task.describe_renamed, Task.map_step_renamed]
  · rw [here, there]
    exact (alike.left.store.find?_new created).trans (alike.right.store.find?_new created').symm
  · rw [here]
    exact Store.given_of_create created

theorem Alike.other (alike : Alike old new v w) (unnamed : r.session? ≠ some old)
    (later : ¬v.starts old r = true) {requests : List Request}
    (kept : (((v.serve r).1.serveAll requests).1.store.find? old).isSome = true) :
    Alike old new (v.serve r).1 w := by
  obtain ⟨settings, folder, capacity, -⟩ := kept_serve alike.left r
  have sound := alike.left.serve r
  have same : (v.serve r).1.store.find? old = v.store.find? old := by
    cases before : v.store.find? old with
    | none =>
      rw [← Option.not_isSome_iff_eq_none]
      intro after
      exact later (by simp [Service.starts, before, after])
    | some s =>
      -- had it lost its place here, it would not have one at the end
      have given := alike.left.given before
      rcases find?_serve alike.left given unnamed with same | lost
      · exact same.trans before
      · rw [lost_serveAll sound (given_serve alike.left r given) lost] at kept
        cases kept
  exact ⟨sound, alike.right, settings.trans alike.settings, folder.trans alike.folder,
    capacity.trans alike.capacity, same.trans alike.same, alike.next,
    alike.begun.imp_left (given_serve alike.left r)⟩

/-- What concerns a session is served alone as it is served among others. -/
theorem Alike.serveAll (alike : Alike old new v w) (text : old ≠ "") {requests : List Request}
    (kept : ((v.serveAll requests).1.store.find? old).isSome = true) :
    (w.serveAll (asked old new (v.concerning old requests))).2 =
        answered old new (v.concerning old requests) ∧
      (w.serveAll (asked old new (v.concerning old requests))).1.store.find? new =
        (v.serveAll requests).1.store.find? old := by
  -- a request that concerns the session is served on both sides, any other only on the left
  induction requests generalizing v w with
  | nil => exact ⟨rfl, alike.same.symm⟩
  | cons r requests ih =>
    by_cases concerns : r.session? = some old ∨ v.starts old r = true
    · have own : v.concerning old (r :: requests) =
          (r, (v.serve r).2) :: (v.serve r).1.concerning old requests := if_pos concerns
      have step : (w.serve (r.renamed old new)).2 = (v.serve r).2.map (·.renamed old new) ∧
          Alike old new (v.serve r).1 (w.serve (r.renamed old new)).1 := by
        rcases concerns with named | starts
        · rw [Request.renamed, if_pos named]
          exact alike.named text named
        · obtain ⟨unnamed, step⟩ := alike.starts starts
          rw [Request.renamed, if_neg unnamed]
          exact step
      obtain ⟨answers, last⟩ := ih step.2 kept
      rw [own]
      exact ⟨congrArg₂ List.cons step.1 answers, last⟩
    · have own : v.concerning old (r :: requests) = (v.serve r).1.concerning old requests :=
        if_neg concerns
      obtain ⟨unnamed, later⟩ := not_or.mp concerns
      rw [own]
      exact ih (alike.other unnamed later kept) kept

variable {naming naming' : Nat → String}

/-- A session that keeps its place among others is answered, and ends, as it would if it were alone
with the same requests, under the name that it has there. -/
theorem session_as_alone (settings : Settings) (folder : Folder) (now now' : Instant)
    (distinct : Function.Injective naming) (named : ∀ n, naming n ≠ "")
    (distinct' : Function.Injective naming') (named' : ∀ n, naming' n ≠ "")
    (requests : List Request) (session : String)
    (kept : (((startWith naming settings folder now).serveAll requests).1.store.find?
      session).isSome = true) :
    let among := startWith naming settings folder now
    let alone := startWith naming' settings folder now'
    let own := among.concerning session requests
    (alone.serveAll (asked session (naming' 1) own)).2 = answered session (naming' 1) own ∧
      (alone.serveAll (asked session (naming' 1) own)).1.store.find? (naming' 1) =
        (among.serveAll requests).1.store.find? session := by
  have left := sound_startWith settings folder now distinct named
  have right := sound_startWith settings folder now' distinct' named'
  have text : session ≠ "" := by
    obtain ⟨s, found⟩ := Option.isSome_iff_exists.mp kept
    have last := left.serveAll requests
    exact last.nonempty (last.given found)
  have alike : Alike session (naming' 1) (startWith naming settings folder now)
      (startWith naming' settings folder now') :=
    ⟨left, right, rfl, rfl, rfl, rfl, rfl, .inr ⟨rfl, rfl⟩⟩
  exact alike.serveAll text kept

end Service

namespace Sample

def begin : Request := ⟨noon, .start, [(.text "workflow", survey)]⟩

def ask (tool : Tool) (session : String) (others : Entries Unit) : Request :=
  ⟨noon, tool, (.text "session_id", .text session) :: others⟩

/-- Two surveys in turns. -/
def surveys : List Request :=
  [begin, ask .status "S2" [], begin, ask .submitInput "S1" [(.text "values", .emptyMap)],
    ask .back "S2" [], ask .back "S1" [], ask .evaluate "S3" [(.text "expression", .text "1")],
    ask .status "S2" []]

/-- A service with room for two sessions. -/
def desk : Service := .startWith Store.sessionName { maxSessions := some 2 } ⟨.ofText "", []⟩ noon

end Sample

open Sample in
/-- Of what is asked in turns, four requests concern the second survey. The first of them comes too
early. -/
theorem Service.session_as_alone_surveys : (desk.concerning "S2" surveys).length = 4 ∧
    (desk.serveAll (asked "S2" "S1" (desk.concerning "S2" surveys))).2 =
      answered "S2" "S1" (desk.concerning "S2" surveys) ∧
    (desk.serveAll (asked "S2" "S1" (desk.concerning "S2" surveys))).1.store.find? "S1" =
      (desk.serveAll surveys).1.store.find? "S2" := by
  have named (n : Nat) : Store.sessionName n ≠ "" := by simp [Store.sessionName]
  have first : Store.sessionName 1 = "S1" := by decide
  have four : (desk.concerning "S2" surveys).length = 4 := by decide +kernel
  have kept : ((desk.serveAll surveys).1.store.find? "S2").isSome = true := by decide +kernel
  rw [desk] at four kept ⊢
  have alone := session_as_alone { maxSessions := some 2 } ⟨.ofText "", []⟩ noon noon
    Store.sessionName_injective named Store.sessionName_injective named surveys "S2" kept
  rw [first] at alone
  exact ⟨four, alone⟩

end Walkthrough
