import Walkthrough.Number.Basic
import Walkthrough.Calendar.Instant

/-! Values that workflows compute with. A value is a scalar, a list or an insertion-ordered map.
Containers carry a label: data read from outside carries none (`Unit`), an evaluation labels every
container with a number of its own, because two containers are equal only when they are one. -/
namespace Walkthrough

inductive Scalar where
  | null
  | missing
  | bool (b : Bool)
  | number (n : Number)
  | text (s : String)
  | date (d : Date)
  | instant (t : Instant)
  deriving DecidableEq, Repr

inductive Value (ι : Type) where
  | atom (s : Scalar)
  | list (label : ι) (items : List (Value ι))
  | map (label : ι) (entries : List (Scalar × Value ι))
  deriving Repr

/-- Values without labels. -/
abbrev Data := Value Unit

namespace Value

variable {ι : Type}

@[match_pattern] abbrev null : Value ι := .atom .null
@[match_pattern] abbrev missing : Value ι := .atom .missing
@[match_pattern] abbrev bool (b : Bool) : Value ι := .atom (.bool b)
@[match_pattern] abbrev number (n : Number) : Value ι := .atom (.number n)
@[match_pattern] abbrev int (n : Int) : Value ι := .atom (.number (.int n))
@[match_pattern] abbrev double (d : Double) : Value ι := .atom (.number (.double d))
@[match_pattern] abbrev text (s : String) : Value ι := .atom (.text s)

instance : Inhabited (Value ι) := ⟨null⟩

end Value

/-- The number that a key stands for: truth values are keys for 0 and 1. -/
def Scalar.keyNumber? : Scalar → Option Number
  | .bool b => some (.ofBool b)
  | .number n => some n
  | _ => none

/-- Two keys address one entry: equal numbers do, whatever their kind. -/
def Scalar.sameKey (a b : Scalar) : Bool :=
  match a.keyNumber?, b.keyNumber? with
  | some m, some n => m.equals n
  | none, none =>
    match a, b with
    | .instant s, .instant t => s.same t
    | _, _ => a == b
  | _, _ => false

/-- Entries of a map in order of insertion. -/
abbrev Entries (ι : Type) := List (Scalar × Value ι)

namespace Entries

variable {ι : Type}

def get? (entries : Entries ι) (key : Scalar) : Option (Value ι) :=
  (entries.find? fun entry => entry.1.sameKey key).map (·.2)

def has (entries : Entries ι) (key : Scalar) : Bool := (entries.get? key).isSome

/-- Writing a key anew keeps its place. -/
def insert (entries : Entries ι) (key : Scalar) (value : Value ι) : Entries ι :=
  match entries with
  | [] => [(key, value)]
  | (k, v) :: rest => if k.sameKey key then (k, value) :: rest else (k, v) :: insert rest key value

def erase (entries : Entries ι) (key : Scalar) : Entries ι :=
  entries.filter fun entry => !entry.1.sameKey key

/-- Inserts the second entries into the first, one by one. -/
def merge (entries new : Entries ι) : Entries ι :=
  new.foldl (fun es entry => es.insert entry.1 entry.2) entries

def ofList (pairs : List (Scalar × Value ι)) : Entries ι := merge [] pairs

/-- The entry under a text. -/
def field? (entries : Entries ι) (name : String) : Option (Value ι) := entries.get? (.text name)

end Entries

namespace Value

def ofList (items : List Data) : Data := .list () items
def ofEntries (entries : Entries Unit) : Data := .map () entries
def emptyMap : Data := .map () []

end Value

end Walkthrough
