import Walkthrough.Proofs.Attempt
import Walkthrough.Proofs.Value.Entries
import Walkthrough.Service.Basic

/-! Requests, and the session that a request is about. Its name is an argument like any other, but
text passes as it is wherever a parameter is for text alone, so a tool receives the name that was
given, and a request about another session gives it everything else as before. -/
namespace Walkthrough

structure Request where
  now : Instant
  tool : Tool
  arguments : Entries Unit

namespace Request

def session? (r : Request) : Option String :=
  match r.arguments.field? "session_id" with
  | some (.text s) => some s
  | _ => none

def about (r : Request) (session : String) : Request :=
  { r with arguments := r.arguments.insert (.text "session_id") (.text session) }

/-- A request about a session that has got another name. -/
def renamed (old new : String) (r : Request) : Request :=
  if r.session? = some old then r.about new else r

theorem session?_eq_some {r : Request} {session : String} :
    r.session? = some session ↔ r.arguments.field? "session_id" = some (.text session) := by
  simp only [session?]
  split
  · rename_i s given
    simp [given]
  · rename_i other
    exact ⟨nofun, fun given => absurd given (other session)⟩

theorem session?_about (r : Request) (session : String) :
    (r.about session).session? = some session :=
  session?_eq_some.mpr (Entries.field?_insert.trans (if_pos rfl))

end Request

namespace Parameter

/-- For text alone. -/
def Plain (p : Parameter) : Prop := p.annotation.accepted = []

def given? (p : Parameter) (named : Entries Unit) : Option Data :=
  (named.field? p.name).or p.fallback

/-- What a tool receives of what is given. -/
def read (p : Parameter) (v : Data) : Except CallError Data :=
  ((p.annotation.convert p.name v).map Argument.value).mapError .parameter

theorem Plain.read {p : Parameter} (plain : p.Plain) (v : Data) : p.read v = .ok v := by
  have nothing : p.annotation.accepted.isEmpty = true := by rw [plain]; rfl
  have passes : p.annotation.convert p.name v = .ok (.given v) := by
    unfold Annotation.convert
    split
    · rw [if_pos nothing]
    · rfl
  rw [Parameter.read, passes]
  rfl

end Parameter

variable {ps : List Parameter} {named : Entries Unit} {values : List Data} {session : String}

theorem bindParameters_cons (p : Parameter) (ps : List Parameter) (named : Entries Unit) :
    bindParameters named (p :: ps) [] =
      match p.given? named with
      | none => .error (.absent p.name)
      | some v => (bindParameters named ps []).map (v :: ·) := by
  rw [bindParameters, Option.orElse_eq_or]
  rfl

/-- Values with another one for the session. -/
def withSession (name : Data) (ps : List Parameter) (values : List Data) : List Data :=
  List.zipWith (fun p v => if p.name = "session_id" then name else v) ps values

theorem withSession_cons (name : Data) (p : Parameter) (ps : List Parameter) (v : Data)
    (values : List Data) : withSession name (p :: ps) (v :: values) =
      (if p.name = "session_id" then name else v) :: withSession name ps values := rfl

theorem given?_insert (named : Entries Unit) (name : Data) (p : Parameter) :
    p.given? (named.insert (.text "session_id") name) =
      if p.name = "session_id" then some name else p.given? named := by
  by_cases same : p.name = "session_id"
  · simp [Parameter.given?, Entries.field?_insert, same]
  · simp [Parameter.given?, Entries.field?_insert, same, Ne.symm same]

theorem namesKnown_insert {w : Data} (there : named.field? "session_id" = some w)
    (ps : List Parameter) (v : Data) :
    namesKnown ps (named.insert (.text "session_id") v) = namesKnown ps named := by
  have keys (es : Entries Unit) : namesKnown ps es =
      (es.map Prod.fst).all fun k => ps.any fun p => Scalar.text p.name == k := by
    rw [List.all_map]
    rfl
  rw [keys, keys, Entries.keys_insert_of_present there]

theorem bindParameters_insert {w : Data} (there : named.field? "session_id" = some w)
    (name : Data) (ps : List Parameter) :
    bindParameters (named.insert (.text "session_id") name) ps [] =
      (bindParameters named ps []).map (withSession name ps) := by
  induction ps with
  | nil => rfl
  | cons p ps ih =>
    rw [bindParameters_cons, bindParameters_cons, given?_insert, ih]
    by_cases same : p.name = "session_id"
    · have here : p.given? named = some w := by rw [Parameter.given?, same, there, Option.some_or]
      rw [if_pos same, here]
      cases bindParameters named ps [] with
      | error e => rfl
      | ok values => simp [Except.map, withSession_cons, same]
    · rw [if_neg same]
      cases p.given? named with
      | none => rfl
      | some v =>
        cases bindParameters named ps [] with
        | error e => rfl
        | ok values => simp [Except.map, withSession_cons, same]

theorem given_of_bindParameters (h : bindParameters named ps [] = .ok values) :
    List.Forall₂ (fun p v => p.given? named = some v) ps values := by
  induction ps generalizing values with
  | nil =>
    cases h
    exact .nil
  | cons p ps ih =>
    rw [bindParameters_cons] at h
    cases given : p.given? named with
    | none => simp [given] at h
    | some v =>
      rw [given] at h
      cases rest : bindParameters named ps [] with
      | error e => simp [rest, Except.map] at h
      | ok bound =>
        rw [rest] at h
        cases h
        exact .cons given (ih rest)

def readAll (ps : List Parameter) (values : List Data) : Except CallError (List Data) :=
  (ps.zip values).mapM fun entry => entry.1.read entry.2

theorem readAll_cons (p : Parameter) (ps : List Parameter) (v : Data) (values : List Data) :
    readAll (p :: ps) (v :: values) =
      p.read v >>= fun w => (readAll ps values).map (w :: ·) := by
  rw [readAll, List.zip_cons_cons, List.mapM_cons]
  rfl

theorem readAll_withSession (name : Data)
    (plain : ∀ p ∈ ps, p.name = "session_id" → p.Plain) (values : List Data) :
    readAll ps (withSession name ps values) = (readAll ps values).map (withSession name ps) := by
  induction ps generalizing values with
  | nil => rfl
  | cons p ps ih =>
    cases values with
    | nil => rfl
    | cons v values =>
      rw [withSession_cons, readAll_cons, readAll_cons,
        ih (fun q inside => plain q (List.mem_cons_of_mem _ inside))]
      by_cases same : p.name = "session_id"
      · -- text passes as it is, so the names do not meet the checks of the tool
        have passes := (plain p (List.mem_cons_self ..) same).read
        rw [if_pos same, passes, passes]
        cases readAll ps values with
        | error e => rfl
        | ok received => exact congrArg Except.ok (by rw [withSession_cons, if_pos same])
      · rw [if_neg same]
        cases p.read v with
        | error e => rfl
        | ok w =>
          cases readAll ps values with
          | error e => rfl
          | ok received => exact congrArg Except.ok (by rw [withSession_cons, if_neg same])

theorem receive_eq (ps : List Parameter) (named : Entries Unit) : receive ps [] named =
    if namesKnown ps named then
      (bindParameters named ps []).mapError .binding >>= readAll ps
    else .error (.binding .unknown) := by
  cases known : namesKnown ps named with
  | true =>
    simp only [receive, known]
    rfl
  | false =>
    simp only [receive, known]
    rfl

/-- A tool receives the new name, and everything else as before. -/
theorem receive_insert {w : Data} (there : named.field? "session_id" = some w) (name : Data)
    (plain : ∀ p ∈ ps, p.name = "session_id" → p.Plain) :
    receive ps [] (named.insert (.text "session_id") name) =
      (receive ps [] named).map (withSession name ps) := by
  rw [receive_eq, receive_eq, namesKnown_insert there, bindParameters_insert there]
  split
  · cases bindParameters named ps [] with
    | error e => rfl
    | ok bound => exact readAll_withSession name plain bound
  · rfl

theorem readAll_plain {bound : List Data}
    (given : List.Forall₂ (fun p v => p.given? named = some v) ps bound)
    (reads : readAll ps bound = .ok values) :
    List.Forall₂ (fun p v => p.Plain → p.given? named = some v) ps values := by
  induction given generalizing values with
  | nil =>
    cases reads
    exact .nil
  | @cons p v ps bound given _ ih =>
    rw [readAll_cons] at reads
    obtain ⟨w, read, rest⟩ := bind_eq_ok.mp reads
    cases tail : readAll ps bound with
    | error e => simp [tail, Except.map] at rest
    | ok received =>
      rw [tail] at rest
      cases rest
      refine .cons (fun plain => ?_) (ih tail)
      cases (plain.read v).symm.trans read
      exact given

/-- A parameter for text alone receives what was given for it. -/
theorem receive_plain (h : receive ps [] named = .ok values) :
    List.Forall₂ (fun p v => p.Plain → p.given? named = some v) ps values := by
  rw [receive_eq] at h
  split at h
  · obtain ⟨bound, binds, reads⟩ := bind_eq_ok.mp h
    cases binding : bindParameters named ps [] with
    | error e => simp [binding, Except.mapError] at binds
    | ok _ =>
      rw [binding] at binds
      cases binds
      exact readAll_plain (given_of_bindParameters binding) reads
  · cases h

/-! ## The session of a tool -/

/-- Where a tool is given the name of a session, it takes any text, and without one there is
nothing. -/
theorem Tool.session_parameter (tool : Tool) : ∀ p ∈ tool.parameters, p.name = "session_id" →
    p.Plain ∧ (p.fallback = none ∨ p.fallback = some .null) := by
  cases tool <;>
    simp [parameters, sessionParameter, expressionParameters, optional, Parameter.Plain,
      Annotation.accepted, Annotation.acceptedAny]

theorem Tool.plain (tool : Tool) : ∀ p ∈ tool.parameters, p.name = "session_id" → p.Plain :=
  fun p inside session => (tool.session_parameter p inside session).1

theorem withSession_eq_self {name : Data}
    (given : List.Forall₂ (fun p v => p.name = "session_id" → v = name) ps values) :
    withSession name ps values = values := by
  induction given with
  | nil => rfl
  | @cons p v _ _ here _ ih =>
    rw [withSession_cons, ih]
    by_cases session : p.name = "session_id"
    · rw [if_pos session, here session]
    · rw [if_neg session]

/-- A tool that is given a session receives just the name that was given. -/
theorem receive_session {tool : Tool} (h : receive tool.parameters [] named = .ok values) :
    values.length = tool.parameters.length ∧
      withSession ((named.field? "session_id").getD .null) tool.parameters values = values := by
  have plain := receive_plain h
  have both := (List.forall₂_and_left _ _).mpr ⟨tool.session_parameter, plain⟩
  refine ⟨plain.length_eq.symm, withSession_eq_self (both.imp fun {p v} here session => ?_)⟩
  obtain ⟨takes, fallback⟩ := here.1 session
  have given := here.2 takes
  rw [Parameter.given?, session] at given
  cases there : named.field? "session_id" with
  | some w =>
    rw [there, Option.some_or] at given
    exact (Option.some.inj given).symm
  | none =>
    rw [there, Option.none_or] at given
    rcases fallback with nothing | void
    · cases nothing.symm.trans given
    · exact Option.some.inj (given.symm.trans void)

/-- A tool that starts a session receives no name of one. -/
theorem Request.session?_of_start {r : Request}
    (h : receive Tool.start.parameters [] r.arguments = .ok values) (session : String) :
    r.session? ≠ some session := by
  rw [receive_eq] at h
  split at h
  · rename_i known
    intro named
    have absent : r.arguments.field? "session_id" = none := by
      rw [Entries.field?_eq_none_iff]
      intro e inside given
      have named := List.all_eq_true.mp known e inside
      simp [Tool.parameters, given] at named
    cases absent.symm.trans (session?_eq_some.mp named)
  · cases h

end Walkthrough
