/-! A bounded store of running sessions. Sessions stand in order of use, the least recent first;
when the store is full the first one makes room for a new one. Names are generated, one for each
session. -/
namespace Walkthrough

structure Store (α : Type) where
  /-- With how many sessions the store is full, if it ever is. -/
  capacity : Option Int
  /-- The least recently used session comes first. -/
  sessions : List (String × α)
  /-- How many sessions have ever been stored. -/
  made : Nat
  /-- The names that are generated, the first one for number one. -/
  naming : Nat → String

namespace Store

variable {α : Type}

def sessionName (n : Nat) : String := s!"S{n}"

def emptyWith (naming : Nat → String) (capacity : Option Int) : Store α :=
  ⟨capacity, [], 0, naming⟩

def empty (capacity : Option Int) : Store α := emptyWith sessionName capacity

def count (s : Store α) : Nat := s.sessions.length

def isFull (s : Store α) : Bool := s.capacity.any fun most => most ≤ (s.count : Int)

/-- Stores a session under a new name. An empty store that is full all the same has none to give
up, so nothing is stored. -/
def create (s : Store α) (session : α) : Option (String × Store α) :=
  let name := s.naming (s.made + 1)
  let add (kept : List (String × α)) :=
    some (name, { s with sessions := kept ++ [(name, session)], made := s.made + 1 })
  if s.isFull then
    match s.sessions with
    | [] => none
    | _ :: kept => add kept
  else add s.sessions

def without (s : Store α) (name : String) : List (String × α) :=
  s.sessions.filter fun entry => entry.1 != name

def find? (s : Store α) (name : String) : Option α :=
  (s.sessions.find? fun entry => entry.1 == name).map (·.2)

/-- A session, which becomes the one used last. -/
def get (s : Store α) (name : String) : Option (α × Store α) :=
  (s.find? name).map fun session =>
    (session, { s with sessions := s.without name ++ [(name, session)] })

/-- Replaces a session in its place. -/
def put (s : Store α) (name : String) (session : α) : Store α :=
  { s with
    sessions := s.sessions.map fun entry => if entry.1 == name then (name, session) else entry }

def remove (s : Store α) (name : String) : Option (α × Store α) :=
  (s.find? name).map fun session => (session, { s with sessions := s.without name })

def clear (s : Store α) : Store α := { s with sessions := [] }

end Store

end Walkthrough
