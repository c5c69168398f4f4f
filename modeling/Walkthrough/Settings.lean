import Walkthrough.Value.Coercion
import Walkthrough.Value.Listing

/-! Settings of the simulator. They are given by name, or taken from environment variables, and
checked as a whole: every fault found is reported. A ceiling of zero stands for no ceiling, and so
does one that is not a number. -/
namespace Walkthrough

/-- How often something may happen. -/
structure Ceiling where
  /-- Without a count there is no end. -/
  count : Option Nat
  /-- The ceiling in messages, as it was given. -/
  shown : String
  deriving DecidableEq, Repr

namespace Ceiling

def without : Ceiling := ⟨none, "0"⟩

/-- A ceiling that is a whole number. -/
def ofNat (n : Nat) : Ceiling := ⟨if n == 0 then none else some n, toString n⟩

/-- So many times do not exceed the ceiling. -/
def allows (c : Ceiling) (n : Nat) : Bool := c.count.all fun most => n ≤ most

end Ceiling

/-- What a simulation and a service go by. -/
structure Settings where
  /-- The key under which localized values have their entry. -/
  locale : Scalar := .text "en-US"
  maxLoopIterations : Ceiling := .without
  maxAutoSteps : Ceiling := .without
  /-- How many lines of the log are kept, if not all of them. -/
  debugLogLimit : Option Nat := some 500
  /-- With how many sessions a store is full, if it ever is. -/
  maxSessions : Option Int := some 50
  mockModel : Data := .text "gpt-4.1-mini"

inductive SettingsError where
  | unknownName (name : String)
  | wrongKind (name : String)
  | notNumber (text : String)
  | fault (f : Fault)
  | invalid (reasons : List String)
  deriving DecidableEq, Repr

namespace Settings

def transports : List String := ["stdio", "http", "sse", "streamable-http"]

def logLevels : List String := ["DEBUG", "INFO", "WARNING", "ERROR", "CRITICAL"]

/-- All settings by name, with their defaults. -/
def defaults : Entries Unit :=
  [(.text "server_name", .text "wavesim"), (.text "transport", .text "stdio"),
    (.text "locale", .text "en-US"), (.text "max_loop_iterations", .int 0),
    (.text "max_auto_steps", .int 0), (.text "debug_log_limit", .int 500),
    (.text "max_sessions", .int 50), (.text "workflow_definitions_path", .text "./workflows/"),
    (.text "mock_model", .text "gpt-4.1-mini"), (.text "log_level", .text "INFO")]

def nameOf : Scalar → String
  | .text s => s
  | s => s.listing

/-- All settings as given, defaults standing in for those that are not. -/
def completed (given : Entries Unit) : Except SettingsError (Entries Unit) :=
  given.foldlM (fun es entry =>
    if es.has entry.1 then .ok (es.insert entry.1 entry.2)
    else .error (.unknownName (nameOf entry.1))) defaults

def reasonIf (fault : Bool) (reason : String) : List String := if fault then [reason] else []

def valueOf (es : Entries Unit) (name : String) : Data := (es.field? name).getD .null

/-- A setting that is a number; a truth value is one. -/
def numberOf (es : Entries Unit) (name : String) : Except SettingsError Number :=
  match valueOf es name with
  | .number n => .ok n
  | .bool b => .ok (.ofBool b)
  | _ => .error (.wrongKind name)

/-- A limit that stands in a refused order to zero is at fault. -/
def limitFault (es : Entries Unit) (name : String) (refused : Ordering → Bool) (reason : String) :
    Except SettingsError (List String) := do
  let n ← numberOf es name
  return reasonIf ((n.order? .zero).any refused) (name ++ reason)

def isOneOf (names : List String) : Data → Bool
  | .text s => names.contains s
  | _ => false

def transportFault (transport : Data) : Except SettingsError (List String) := do
  if isOneOf transports transport then return []
  return ["unsupported transport: " ++ (← transport.shown.mapError .fault)]

/-- The faults of settings, in a fixed order. -/
def faults (es : Entries Unit) : Except SettingsError (List String) := do
  let loops ← limitFault es "max_loop_iterations" Ordering.isLT " cannot be negative"
  let steps ← limitFault es "max_auto_steps" Ordering.isLT " cannot be negative"
  let log ← limitFault es "debug_log_limit" Ordering.isLE " must be positive"
  let sessions ← limitFault es "max_sessions" Ordering.isLE " must be positive"
  let transport ← transportFault (valueOf es "transport")
  return loops ++ steps ++ log ++ sessions ++
    reasonIf (valueOf es "locale").isVoid "locale cannot be empty" ++ transport ++
    reasonIf (!isOneOf logLevels (valueOf es "log_level"))
      ("log_level must be one of [" ++ ", ".intercalate (logLevels.map Text.quoted) ++ "]")

/-- Settings without fault stay as they are. -/
def checked (es : Entries Unit) : Except SettingsError (Entries Unit) := do
  match ← faults es with
  | [] => return es
  | reasons => .error (.invalid reasons)

/-- All settings as given, once they have been checked. -/
def accept (given : Entries Unit) : Except SettingsError (Entries Unit) := do
  checked (← completed given)

/-- How a ceiling appears in messages, however many digits it has: only where it is exceeded. -/
def shownCeiling : Data → String
  | .atom s => s.listing
  | _ => ""

/-- The ceiling that a setting gives. What is between two whole numbers allows no more than the
smaller one does. -/
def ceilingOf (es : Entries Unit) (name : String) : Except SettingsError Ceiling := do
  let n ← numberOf es name
  return ⟨if n.equals .zero then none else n.floor?.map Int.toNat, shownCeiling (valueOf es name)⟩

/-- The number of lines that a log keeps. Only a whole number says where to cut: others leave the log
as it is, but must leave room for the two lines that every beginning writes. -/
def logLimitOf (es : Entries Unit) (name : String) : Except SettingsError (Option Nat) := do
  match ← numberOf es name with
  | .int n => return some n.toNat
  | .double d =>
    if (Number.double d).floor?.any (· < 2) then .error (.wrongKind name) else return none

/-- The key that a locale is; a container is the key of nothing. -/
def localeOf (es : Entries Unit) (name : String) : Scalar :=
  match valueOf es name with
  | .atom s => s
  | _ => .missing

/-- What a simulation goes by, from settings that are given by name. A setting that is at no fault
but not of its kind cannot be taken. -/
def ofEntries (given : Entries Unit) : Except SettingsError Settings := do
  let es ← accept given
  return {
    locale := localeOf es "locale"
    maxLoopIterations := ← ceilingOf es "max_loop_iterations"
    maxAutoSteps := ← ceilingOf es "max_auto_steps"
    debugLogLimit := ← logLimitOf es "debug_log_limit"
    maxSessions := (← numberOf es "max_sessions").ceil?
    mockModel := valueOf es "mock_model" }

/-- Capital letters, as far as the names of log levels need them: ASCII and the dotless i. -/
def capital (c : Char) : Char := if c == 'ı' then 'I' else c.toUpper

/-- The environment variables that give settings, with the names of these. -/
def environment : List (String × String) :=
  [("WAVESIM_SERVER_NAME", "server_name"), ("WAVESIM_TRANSPORT", "transport"),
    ("WAVESIM_LOCALE", "locale"), ("WAVESIM_MAX_LOOP_ITERATIONS", "max_loop_iterations"),
    ("WAVESIM_MAX_AUTO_STEPS", "max_auto_steps"), ("WAVESIM_DEBUG_LOG_LIMIT", "debug_log_limit"),
    ("WAVESIM_MAX_SESSIONS", "max_sessions"),
    ("WAVESIM_WORKFLOWS_PATH", "workflow_definitions_path"),
    ("WAVESIM_MOCK_MODEL", "mock_model"), ("LOG_LEVEL", "log_level")]

/-- The value of a setting from its text: a whole number where the default is one. -/
def valueFrom (name text : String) : Except SettingsError Data :=
  if name == "log_level" then .ok (.text (text.map capital))
  else
    match valueOf defaults name with
    | .int _ =>
      match Numeral.setting? text.toList with
      | some n => .ok (.int n)
      | none => .error (.notNumber text)
    | _ => .ok (.text text)

/-- Settings from environment variables; those not given keep their defaults. -/
def ofEnvironment (env : String → Option String) : Except SettingsError (Entries Unit) := do
  let given ← environment.filterMapM fun (variable_, name) =>
    (env variable_).mapM fun text => do return (Scalar.text name, ← valueFrom name text)
  accept given

end Settings

/-- The wording of invalid settings; the other errors have none. -/
def SettingsError.message : SettingsError → Option String
  | .invalid reasons => some ("Invalid configuration: " ++ ", ".intercalate reasons)
  | _ => none

end Walkthrough
