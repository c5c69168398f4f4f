import Mathlib.Tactic.Tauto
import Walkthrough.Json.Reader
import Walkthrough.Proofs.Json.Quotation

/-! The scalars in a value that is read from JSON, as keys of maps or anywhere else. Each of them
stands in the text that is read, as a token of its own: what a value holds was written. -/
namespace Walkthrough

namespace Value

mutual

/-- The scalars that a value holds, keys included. -/
def scalars : Data → List Scalar
  | .atom k => [k]
  | .list _ items => itemScalars items
  | .map _ entries => entryScalars entries

def itemScalars : List Data → List Scalar
  | [] => []
  | v :: rest => scalars v ++ itemScalars rest

def entryScalars : List (Scalar × Data) → List Scalar
  | [] => []
  | (key, v) :: rest => key :: scalars v ++ entryScalars rest

end

mutual

/-- The texts that a value holds, keys included. -/
def texts : Data → List String
  | .atom (.text s) => [s]
  | .atom _ => []
  | .list _ items => itemTexts items
  | .map _ entries => entryTexts entries

def itemTexts : List Data → List String
  | [] => []
  | v :: rest => texts v ++ itemTexts rest

def entryTexts : List (Scalar × Data) → List String
  | [] => []
  | (.text key, v) :: rest => key :: texts v ++ entryTexts rest
  | (_, v) :: rest => texts v ++ entryTexts rest

end

mutual

theorem mem_texts_iff {s : String} (v : Data) : s ∈ v.texts ↔ .text s ∈ v.scalars := by
  match v with
  | .atom k => cases k <;> simp [texts, scalars]
  | .list label items => exact mem_itemTexts_iff items
  | .map label entries => exact mem_entryTexts_iff entries

theorem mem_itemTexts_iff {s : String} (items : List Data) :
    s ∈ itemTexts items ↔ .text s ∈ itemScalars items := by
  match items with
  | [] => simp [itemTexts, itemScalars]
  | v :: rest => simp [itemTexts, itemScalars, mem_texts_iff v, mem_itemTexts_iff rest]

theorem mem_entryTexts_iff {s : String} (entries : List (Scalar × Data)) :
    s ∈ entryTexts entries ↔ .text s ∈ entryScalars entries := by
  match entries with
  | [] => simp [entryTexts, entryScalars]
  | (k, v) :: rest =>
    cases k <;> simp [entryTexts, entryScalars, mem_texts_iff v, mem_entryTexts_iff rest]

end

variable {s : Scalar} {items : List Data}

theorem mem_itemScalars : s ∈ itemScalars items ↔ ∃ v ∈ items, s ∈ v.scalars := by
  induction items with
  | nil => simp [itemScalars]
  | cons v items ih => simp [itemScalars, ih]

end Value

theorem Entries.mem_entryScalars_insert {es : Entries Unit} {key s : Scalar} {v : Data}
    (inside : s ∈ Value.entryScalars (es.insert key v)) :
    s ∈ Value.entryScalars es ∨ s = key ∨ s ∈ v.scalars := by
  induction es with
  | nil => simpa [insert, Value.entryScalars] using inside
  | cons e es ih =>
    obtain ⟨k, w⟩ := e
    rw [insert] at inside
    split at inside
    all_goals
      simp only [Value.entryScalars, List.cons_append, List.mem_cons, List.mem_append] at inside ⊢
      tauto

namespace Json

open Value

def Token.scalar? : Token → Option Scalar
  | .text s => some (.text s)
  | .scalar s => some s
  | _ => none

theorem Token.text?_eq_some_iff {t : Token} {s : String} :
    t.text? = some s ↔ t.scalar? = some (.text s) := by
  cases t with
  | scalar k => cases k <;> simp [text?, scalar?]
  | _ => simp [text?, scalar?]

/-- A scalar is in a container that is not closed yet. -/
inductive Held (s : Scalar) : List Unfinished → Prop where
  | item {items : List Data} {rest : List Unfinished} (inside : s ∈ itemScalars items) :
      Held s (.list items :: rest)
  | key {es : Entries Unit} {name : String} {rest : List Unfinished} (named : s = .text name) :
      Held s (.map es name :: rest)
  | entry {es : Entries Unit} {name : String} {rest : List Unfinished}
      (inside : s ∈ entryScalars es) : Held s (.map es name :: rest)
  | under {u : Unfinished} {rest : List Unfinished} (held : Held s rest) : Held s (u :: rest)

variable {s : Scalar} {name : String} {v : Data} {items : List Data} {es : Entries Unit}
  {stack rest : List Unfinished} {r r' : Reading} {t : Token} {ts : List Token}

@[simp] theorem not_held_nil : ¬Held s [] := nofun

@[simp] theorem held_list_iff :
    Held s (.list items :: rest) ↔ s ∈ itemScalars items ∨ Held s rest := by
  constructor
  · rintro (inside | - | - | held)
    · exact .inl inside
    · exact .inr held
  · rintro (inside | held)
    · exact .item inside
    · exact .under held

@[simp] theorem held_map_iff :
    Held s (.map es name :: rest) ↔ s = .text name ∨ s ∈ entryScalars es ∨ Held s rest := by
  constructor
  · rintro (- | named | inside | held)
    · exact .inl named
    · exact .inr (.inl inside)
    · exact .inr (.inr held)
  · rintro (named | inside | held)
    · exact .key named
    · exact .entry inside
    · exact .under held

def Expecting.scalars : Expecting → List Scalar
  | .colon name => [.text name]
  | .nothing v => v.scalars
  | _ => []

/-- A scalar has been read and is not given up. -/
def Reading.Keeps (r : Reading) (s : Scalar) : Prop :=
  Held s r.stack ∨ s ∈ r.next.scalars ∨ s ∈ entryScalars r.entries

theorem keeps_place (keeps : (Reading.place stack v).Keeps s) : Held s stack ∨ s ∈ v.scalars := by
  unfold Reading.place at keeps
  split at keeps
  · simpa [Reading.Keeps, Expecting.scalars, entryScalars] using keeps
  · simp only [Reading.Keeps, held_list_iff, itemScalars, Expecting.scalars, entryScalars,
      List.mem_append, List.not_mem_nil, or_false] at keeps ⊢
    tauto
  · simp only [Reading.Keeps, held_map_iff, Expecting.scalars, entryScalars, List.not_mem_nil,
      or_false] at keeps ⊢
    rcases keeps with here | written | held
    · exact .inl (.inl here)
    · rcases Entries.mem_entryScalars_insert written with before | key | told
      · exact .inl (.inr (.inl before))
      · exact .inl (.inl key)
      · exact .inr told
    · exact .inl (.inr (.inr held))

theorem keeps_beginValue (reads : Reading.beginValue stack t = some r) (keeps : r.Keeps s) :
    Held s stack ∨ t.scalar? = some s := by
  unfold Reading.beginValue at reads
  split at reads
  case h_1 | h_2 =>
    cases reads
    refine .inl ?_
    simpa [Reading.Keeps, Expecting.scalars, itemScalars, entryScalars] using keeps
  case h_3 | h_4 =>
    cases reads
    exact (keeps_place keeps).imp_right fun told => congrArg some (List.mem_singleton.mp told).symm
  case h_5 => cases reads

theorem mem_scalars_ofList_reverse (told : s ∈ (Value.ofList items.reverse).scalars) :
    s ∈ itemScalars items := by
  obtain ⟨v, inside, told⟩ := mem_itemScalars.mp told
  exact mem_itemScalars.mpr ⟨v, List.mem_reverse.mp inside, told⟩

/-- What a token leaves has been there before or is the scalar of the token. -/
theorem keeps_step (reads : r.step t = some r') (keeps : r'.Keeps s) :
    r.Keeps s ∨ t.scalar? = some s := by
  obtain ⟨stack, next, es⟩ := r
  unfold Reading.step at reads
  dsimp only at reads
  split at reads
  case h_1 | h_3 => exact (keeps_beginValue reads keeps).imp_left .inl
  case h_2 | h_9 =>
    split at reads
    · cases reads
      refine .inl (.inl (held_list_iff.mpr ?_))
      exact (keeps_place keeps).symm.imp_left mem_scalars_ofList_reverse
    · cases reads
  case h_4 =>
    cases reads
    exact .inl ((keeps_place keeps).imp_right .inr)
  case h_5 | h_6 name =>
    cases reads
    rcases keeps with held | here | there
    · exact .inl (.inl held)
    · exact .inr (congrArg some (List.mem_singleton.mp here).symm)
    · exact .inl (.inr (.inr there))
  case h_7 =>
    cases reads
    simp only [Reading.Keeps, held_map_iff, Expecting.scalars, entryScalars, List.mem_singleton,
      List.not_mem_nil, or_false] at keeps ⊢
    tauto
  case h_8 =>
    split at reads
    · cases reads
      refine .inl (.inl ?_)
      simpa [Reading.Keeps, Expecting.scalars, entryScalars] using keeps
    · cases reads
      simp only [Reading.Keeps, held_map_iff, Expecting.scalars, List.not_mem_nil, false_or]
        at keeps ⊢
      tauto
    · cases reads
  case h_10 =>
    split at reads
    · cases reads
      refine .inl (.inl (held_map_iff.mpr ?_))
      exact .inr (keeps_place keeps).symm
    · cases reads
  case h_11 => cases reads

theorem keeps_run (reads : ts.foldlM Reading.step r = some r') (keeps : r'.Keeps s) :
    r.Keeps s ∨ ∃ t ∈ ts, t.scalar? = some s := by
  induction ts generalizing r with
  | nil =>
    cases reads
    exact .inl keeps
  | cons t ts ih =>
    rw [List.foldlM_cons] at reads
    obtain ⟨next, first, others⟩ := Option.bind_eq_some_iff.mp reads
    rcases ih others with kept | ⟨t', inside, told⟩
    · exact (keeps_step first kept).imp_right fun told => ⟨t, List.mem_cons_self .., told⟩
    · exact .inr ⟨t', List.mem_cons_of_mem _ inside, told⟩

theorem exists_of_mem_scalars (reads : ofTokens? ts = some v) (told : s ∈ v.scalars) :
    ∃ t ∈ ts, t.scalar? = some s := by
  obtain ⟨r, run, result⟩ := Option.bind_eq_some_iff.mp reads
  have keeps : r.Keeps s := by
    unfold Reading.result? at result
    split at result
    · rename_i w ended
      cases result
      exact .inr (.inl (by rw [ended]; exact told))
    · cases result
  refine (keeps_run run keeps).resolve_left ?_
  simp [Reading.Keeps, Reading.start, Expecting.scalars, entryScalars]

theorem exists_of_mem_texts {s : String} (reads : ofTokens? ts = some v) (told : s ∈ v.texts) :
    ∃ t ∈ ts, t.text? = some s := by
  obtain ⟨t, inside, written⟩ := exists_of_mem_scalars reads ((mem_texts_iff v).mp told)
  exact ⟨t, inside, Token.text?_eq_some_iff.mpr written⟩

end Json

end Walkthrough
