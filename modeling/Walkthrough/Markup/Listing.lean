import Walkthrough.Markup.Content
import Walkthrough.Value.Listing

/-! How the log and the error messages show what a document holds, with points for a collection
inside itself. What holds a whole number with too many digits cannot be shown by them. -/
namespace Walkthrough.Markup.Document

/-- A node inside a collection; `around` are the collections that it stands in. -/
def listedIn (d : Document) : Nat → List Nat → Nat → String
  | 0, _, _ => ""
  | fuel + 1, around, i =>
    let again := around.contains i
    let listed := listedIn d fuel (i :: around)
    let pair (before between after : String) (p : Nat × Nat) : String :=
      before ++ listed p.1 ++ between ++ listed p.2 ++ after
    match d.content i with
    | .scalar s => s.listing
    | .notNumber => (Scalar.number .nan).listing
    | .bytes bs => Text.quotedBytes bs
    | .list items => if again then "[...]" else "[" ++ ", ".intercalate (items.map listed) ++ "]"
    | .pairs ps =>
      if again then "[...]"
      else "[" ++ ", ".intercalate (ps.map (pair "(" ", " ")")) ++ "]"
    | .map entries =>
      if again then "\x7b...\x7d"
      else "\x7b" ++ ", ".intercalate (entries.map (pair "" ": " "")) ++ "\x7d"
    | .set [] => "set()"
    | .set elements => "\x7b" ++ ", ".intercalate (elements.map listed) ++ "\x7d"

/-- A node inside a collection. No path is longer than the number of nodes without a repetition. -/
def listed (d : Document) (i : Nat) : String := d.listedIn (d.contents.size + 1) [] i

/-- A whole number with too many digits somewhere in a node; `around` are the nodes that it stands
in. -/
def overlongIn (d : Document) : Nat → List Nat → Nat → Option Number
  | 0, _, _ => none
  | fuel + 1, around, i =>
    let inside := overlongIn d fuel (i :: around)
    if around.contains i then none
    else
      match d.content i with
      | .scalar (.number n) => if digitLimit < n.digits then some n else none
      | .list nodes | .set nodes => nodes.findSome? inside
      | .pairs ps | .map ps => ps.findSome? fun p => (inside p.1).orElse fun _ => inside p.2
      | _ => none

/-- A node as it is shown, or a number in it that keeps it from being shown. -/
def shown (d : Document) (i : Nat) : Data :=
  match d.overlongIn (d.contents.size + 1) [] i with
  | some n => .number n
  | none => .text (d.listed i)

end Walkthrough.Markup.Document
