import Walkthrough.Json.Token

/-! Values from JSON tokens. The reader keeps the containers it is inside as a stack of partial
ones, so that one pass over the tokens reads the text. A repeated key keeps its first place and
takes its last value. -/
namespace Walkthrough.Json

/-- A container that is not closed yet, its parts in reverse, or a map that waits for the value of
a key. -/
inductive Unfinished where
  | list (items : List Data)
  | map (entries : Entries Unit) (key : String)

/-- What may come next. -/
inductive Expecting where
  | value
  | valueOrClose
  | key
  | keyOrClose
  | colon (key : String)
  | separator
  | nothing (result : Data)

structure Reading where
  stack : List Unfinished
  next : Expecting
  /-- The map whose key is being read. -/
  entries : Entries Unit

/-- Puts a finished value where it belongs. -/
def Reading.place (stack : List Unfinished) (v : Data) : Reading :=
  match stack with
  | [] => ⟨[], .nothing v, []⟩
  | .list items :: rest => ⟨.list (v :: items) :: rest, .separator, []⟩
  | .map entries key :: rest => ⟨.map (entries.insert (.text key) v) key :: rest, .separator, []⟩

def Reading.beginValue (stack : List Unfinished) : Token → Option Reading
  | .openList => some ⟨.list [] :: stack, .valueOrClose, []⟩
  | .openMap => some ⟨stack, .keyOrClose, []⟩
  | .text s => some (place stack (.text s))
  | .scalar s => some (place stack (.atom s))
  | _ => none

def Reading.step (r : Reading) (t : Token) : Option Reading :=
  match r.next, t with
  | .value, t => beginValue r.stack t
  | .valueOrClose, .closeList =>
    match r.stack with
    | .list items :: rest => some (place rest (Value.ofList items.reverse))
    | _ => none
  | .valueOrClose, t => beginValue r.stack t
  | .keyOrClose, .closeMap => some (place r.stack (Value.ofEntries r.entries))
  | .keyOrClose, .text s => some ⟨r.stack, .colon s, r.entries⟩
  | .key, .text s => some ⟨r.stack, .colon s, r.entries⟩
  | .colon s, .colon => some ⟨.map r.entries s :: r.stack, .value, []⟩
  | .separator, .comma =>
    match r.stack with
    | .list items :: rest => some ⟨.list items :: rest, .value, []⟩
    | .map entries _ :: rest => some ⟨rest, .key, entries⟩
    | [] => none
  | .separator, .closeList =>
    match r.stack with
    | .list items :: rest => some (place rest (Value.ofList items.reverse))
    | _ => none
  | .separator, .closeMap =>
    match r.stack with
    | .map entries _ :: rest => some (place rest (Value.ofEntries entries))
    | _ => none
  | _, _ => none

def Reading.start : Reading := ⟨[], .value, []⟩

def Reading.result? (r : Reading) : Option Data :=
  match r.next with
  | .nothing v => some v
  | _ => none

def ofTokens? (ts : List Token) : Option Data :=
  (ts.foldlM Reading.step Reading.start).bind Reading.result?

/-- The value that a JSON text holds. -/
def read? (s : String) : Option Data := (tokens? s.toList).bind ofTokens?

/-- A value may come next. -/
def Reading.awaitsValue (r : Reading) : Bool :=
  match r.next with
  | .value | .valueOrClose => true
  | _ => false

/-- The first thing in a text that cannot be read is a whole number with too many digits. -/
def stopsTooLong (s : String) : Bool :=
  let (ts, rest) := front s.toList
  (ts.foldlM Reading.step Reading.start).any Reading.awaitsValue && startsTooLong rest

/-- Reads a JSON text. A text that is none holds nothing, but too many digits are a failure. -/
def read (s : String) : Except Fault (Option Data) :=
  match read? s with
  | some v => .ok (some v)
  | none => if stopsTooLong s then .error .tooManyDigits else .ok none

theorem read_eq_some {s : String} {v : Data} : read s = .ok (some v) ↔ read? s = some v := by
  unfold read
  cases read? s with
  | some w => simp
  | none => cases stopsTooLong s <;> simp

end Walkthrough.Json
