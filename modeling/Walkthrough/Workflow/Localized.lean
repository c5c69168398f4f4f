import Walkthrough.Json.Writer
import Walkthrough.Value.Coercion
import Walkthrough.Value.Listing

/-! Localized values: maps from a locale to a value. A map without an entry for the locale, or with
a void one, stands for itself. -/
namespace Walkthrough

def defaultLocale : Scalar := .text "en-US"

/-- The entry of a locale, unless it is void. -/
def forLocale? (entries : Entries Unit) (locale : Scalar) : Option Data :=
  match entries.get? locale with
  | some v => if v.isVoid then none else some v
  | none => none

def localized (v : Data) (locale : Scalar) : Data :=
  match v with
  | .map _ entries => (forLocale? entries locale).getD v
  | v => v

mutual

/-- The text of a prompt: a list stands for its first item, a map for its locale's entry or else
for its JSON text, which not every map has. -/
def promptText (locale : Scalar) : Data → Except Escape String
  | .text s => .ok s
  | .list _ items => promptFirst locale items
  | .map label entries =>
    if entries.isEmpty then .ok ""
    else (promptEntry locale entries).getD (Json.write .unicode (Value.map label entries))
  | .atom s =>
    if (Value.atom (ι := Unit) s).isVoid then .ok ""
    else (Value.atom (ι := Unit) s).shown.mapError .fault

def promptFirst (locale : Scalar) : List Data → Except Escape String
  | [] => .ok ""
  | v :: _ => promptText locale v

/-- The text of the locale's entry, if there is one that is not void. -/
def promptEntry (locale : Scalar) : List (Scalar × Data) → Option (Except Escape String)
  | [] => none
  | (k, v) :: rest =>
    if k.sameKey locale then (if v.isVoid then none else some (promptText locale v))
    else promptEntry locale rest

end

end Walkthrough
