import Walkthrough.Proofs.Expression.Visiting
import Walkthrough.Proofs.Span.Parser

/-! What the scans of a span find. A span stands for the tokens in it; on these each scan finds what
the division of token lists finds, and looks at no other place. -/
namespace Walkthrough.Expression.Span

/-- A token is looked at where there is one; a scan does nothing else. -/
def Act.Scans (count : Int) : Act → Prop
  | .look place => 0 ≤ place ∧ place < count
  | .read _ | .hand _ _ => False

/-- Nothing but a scan is done, and the result fits. -/
structure Traced.Sound {α : Type} (count : Int) (p : Traced α) (fits : α → Prop) : Prop where
  acts : ∀ act ∈ p.acts, act.Scans count
  result : ∃ a, p.result = .ok a ∧ fits a

namespace Traced.Sound

variable {α β : Type} {count : Int} {p : Traced α} {fits fits' : α → Prop} {fits₂ : β → Prop}

theorem pure {a : α} (fit : fits a) : (Pure.pure a : Traced α).Sound count fits :=
  ⟨List.forall_mem_nil _, a, rfl, fit⟩

theorem mono (sound : p.Sound count fits) (imp : ∀ a, fits a → fits' a) : p.Sound count fits' := by
  obtain ⟨acts, a, result, fit⟩ := sound
  exact ⟨acts, a, result, imp a fit⟩

theorem bind {f : α → Traced β} (first : p.Sound count fits)
    (next : ∀ a, fits a → (f a).Sound count fits₂) : (p >>= f).Sound count fits₂ := by
  obtain ⟨acts, a, result, fit⟩ := first
  obtain ⟨later, b, ends, fit₂⟩ := next a fit
  have shape : p >>= f = ⟨p.acts ++ (f a).acts, (f a).result⟩ := by
    simp only [Bind.bind, result]
  rw [shape]
  exact ⟨List.forall_mem_append.mpr ⟨acts, later⟩, b, ends, fit₂⟩

theorem next {f : α → Traced β} {a : α} (first : p.Sound count (· = a))
    (later : (f a).Sound count fits₂) : (p >>= f).Sound count fits₂ :=
  first.bind fun _ same => same ▸ later

end Traced.Sound

/-- The tokens of a text at their places. -/
def sourceOf (ts : List Token) (tail : List Char) : Source := ⟨textBehind ts ++ tail, spots 0 ts⟩

def spotBehind (front : List Token) (t : Token) : Spot :=
  ⟨t.kind, t.value, (textBehind front ++ t.gap).length, (textBehind (front ++ [t])).length⟩

theorem spotBehind_kind (front : List Token) (t : Token) : (spotBehind front t).kind = t.kind := rfl

/-- These tokens stand at the span. -/
def Spans (ts : List Token) (lo hi : Int) (us : List Token) : Prop :=
  ∃ front, front ++ us <+: ts ∧ lo = front.length ∧ hi = (front ++ us).length

section Looking

variable {ts front us : List Token} {t : Token} {tail : List Char} {lo hi place : Int}

theorem Spans.length (spans : Spans ts lo hi us) : hi - lo = us.length := by
  obtain ⟨front, -, rfl, rfl⟩ := spans
  rw [List.length_append]
  omega

theorem Spans.within (spans : Spans ts lo hi us) : 0 ≤ lo ∧ lo ≤ hi ∧ hi ≤ ts.length := by
  obtain ⟨front, within, rfl, rfl⟩ := spans
  have := within.length_le
  rw [List.length_append] at this ⊢
  omega

theorem Spans.behind {before : List Token} (spans : Spans ts lo hi (before ++ us)) :
    Spans ts (lo + before.length) hi us := by
  obtain ⟨front, within, rfl, rfl⟩ := spans
  exact ⟨front ++ before, by simpa using within, by simp, by simp⟩

theorem Spans.before {behind : List Token} (spans : Spans ts lo hi (us ++ behind)) :
    Spans ts lo (lo + us.length) us := by
  obtain ⟨front, within, rfl, rfl⟩ := spans
  refine ⟨front, List.IsPrefix.trans ⟨behind, by simp⟩ within, rfl, by simp⟩

theorem Spans.next (spans : Spans ts lo hi (t :: us)) : Spans ts (lo + 1) hi us :=
  (show Spans ts lo hi ([t] ++ us) from spans).behind

theorem spots_append (position : Nat) (ts us : List Token) : spots position (ts ++ us) =
    spots position ts ++ spots (position + (textBehind ts).length) us := by
  induction ts generalizing position with
  | nil => rfl
  | cons t ts ih =>
    rw [List.cons_append, spots, spots, ih, textBehind_cons, List.length_append, List.length_append,
      List.cons_append]
    simp only [Nat.add_assoc]

theorem spots_length (position : Nat) (ts : List Token) : (spots position ts).length = ts.length := by
  induction ts generalizing position with
  | nil => rfl
  | cons t ts ih => rw [spots, List.length_cons, ih, List.length_cons]

theorem look_sound (within : front ++ t :: us <+: ts) (here : place = front.length) :
    (look (sourceOf ts tail) place).Sound ts.length (· = spotBehind front t) := by
  obtain ⟨back, rfl⟩ := within
  have found : (spots 0 (front ++ t :: us ++ back))[front.length]? = some (spotBehind front t) := by
    rw [List.append_assoc, spots_append, List.getElem?_append_right (by rw [spots_length]),
      spots_length, Nat.sub_self]
    simp [spots, spotBehind, textBehind_append, Nat.add_assoc]
  subst here
  refine ⟨?_, spotBehind front t, ?_, rfl⟩
  · intro act listed
    cases List.mem_singleton.mp listed
    simp only [Act.Scans, List.length_append, List.length_cons]
    omega
  · simp only [look, sourceOf, Int.natCast_nonneg, ↓reduceIte, Int.toNat_natCast, found]

theorem look_first (spans : Spans ts lo hi (t :: us)) :
    (look (sourceOf ts tail) lo).Sound ts.length (·.kind = t.kind) := by
  obtain ⟨front, within, first, -⟩ := spans
  refine (look_sound within first).mono ?_
  rintro _ rfl
  rfl

theorem look_last (spans : Spans ts lo hi (us ++ [t])) :
    (look (sourceOf ts tail) (hi - 1)).Sound ts.length (·.kind = t.kind) := by
  obtain ⟨front, within, -, last⟩ := spans
  have final : front ++ us ++ t :: [] <+: ts := by rwa [List.append_assoc]
  refine (look_sound final (by simp [last]; omega)).mono ?_
  rintro _ rfl
  rfl

theorem pass_spotBehind (depth : Int) (front : List Token) (t : Token) :
    pass depth (spotBehind front t) = (exposed depth t, depthAfter depth t) := by
  have apart := Kind.isCloser_of_isOpener t.kind
  cases opening : t.kind.isOpener with
  | true => simp [pass, spotBehind, exposed, depthAfter, opening, apart opening]
  | false =>
    cases closing : t.kind.isCloser <;>
      simp [pass, spotBehind, exposed, depthAfter, opening, closing]

theorem append_cons_isPrefix (within : front ++ t :: us <+: ts) : (front ++ [t]) ++ us <+: ts := by
  rwa [List.append_assoc]

end Looking

section Exposed

variable {ts front us : List Token} {t : Token} {tail : List Char} {lo hi place depth : Int} {n : Nat}

/-- The exposed tokens among some that stand behind others, with their places. -/
def shown (depth : Int) (front : List Token) : List Token → List (Int × Spot)
  | [] => []
  | t :: us =>
    let rest := shown (depthAfter depth t) (front ++ [t]) us
    if exposed depth t then (↑front.length, spotBehind front t) :: rest else rest

theorem exposedFrom_sound (within : front ++ us <+: ts) (here : place = front.length)
    (all : n = us.length) :
    (exposedFrom (sourceOf ts tail) depth place n).Sound ts.length (· = shown depth front us) := by
  induction us generalizing front depth place n with
  | nil =>
    subst all
    exact .pure rfl
  | cons t us ih =>
    subst all
    rw [List.length_cons, exposedFrom]
    refine (look_sound within here).next ?_
    rw [pass_spotBehind]
    refine (ih (append_cons_isPrefix within) (by simp [here]) rfl).next ?_
    refine .pure ?_
    rw [shown, here]

theorem topLevel_sound (within : front ++ us <+: ts) (first : lo = front.length)
    (last : hi = (front ++ us).length) :
    (topLevel (sourceOf ts tail) lo hi).Sound ts.length (· = shown 0 front us) := by
  refine exposedFrom_sound within first ?_
  rw [first, last, List.length_append]
  omega

theorem seekFrom_sound {wanted : Kind → Bool} (within : front ++ us <+: ts)
    (here : place = front.length) (all : n = us.length) (depth : Int) :
    (seekFrom (sourceOf ts tail) wanted depth place n).Sound ts.length
      (· = ((shown depth front us).find? fun p => wanted p.2.kind).map (·.1)) := by
  induction us generalizing front depth place n with
  | nil =>
    subst all
    exact .pure rfl
  | cons t us ih =>
    subst all
    rw [List.length_cons, seekFrom]
    refine (look_sound within here).next ?_
    rw [pass_spotBehind]
    have next : place + 1 = (front ++ [t]).length := by simp [here]
    have later := ih (append_cons_isPrefix within) next rfl (depthAfter depth t)
    rw [shown]
    cases open_ : exposed depth t with
    | false => simpa using later
    | true =>
      cases want : wanted t.kind with
      | false => simpa [spotBehind, want] using later
      | true =>
        simp only [spotBehind, want, Bool.and_self, ↓reduceIte]
        exact .pure (by simp [want, here])

theorem seek_sound {wanted : Kind → Bool} (within : front ++ us <+: ts) (first : lo = front.length)
    (last : hi = (front ++ us).length) : (seek (sourceOf ts tail) wanted lo hi).Sound ts.length
      (· = ((shown 0 front us).find? fun p => wanted p.2.kind).map (·.1)) := by
  refine seekFrom_sound within first ?_ 0
  rw [first, last, List.length_append]
  omega

/-- The first exposed token of a kind is where a list is cut. -/
theorem find?_shown (kind : Kind) (depth : Int) (front us : List Token) :
    ((shown depth front us).find? fun p => p.2.kind == kind).map (·.1) =
      (cut kind depth us).map fun (before, _) => ((front ++ before).length : Int) := by
  induction us generalizing front depth with
  | nil => rfl
  | cons t us ih =>
    have later := ih (depthAfter depth t) (front ++ [t])
    rw [shown, cut]
    cases open_ : exposed depth t with
    | false => simpa [Option.map_map, Function.comp_def] using later
    | true =>
      cases same : t.kind == kind with
      | true => simp [spotBehind, same]
      | false => simpa [spotBehind, same, Option.map_map, Function.comp_def] using later

theorem placesOf_cons (kind : Kind) (p : Int × Spot) (ps : List (Int × Spot)) :
    placesOf kind (p :: ps) =
      if p.2.kind == kind then p.1 :: placesOf kind ps else placesOf kind ps := by
  unfold placesOf
  rw [List.filter_cons]
  split <;> rfl

abbrev SpanAll (ts : List Token) : List (Int × Int) → List (List Token) → Prop :=
  List.Forall₂ fun span us => Spans ts span.1 span.2 us

/-- Spans between the exposed tokens of a kind stand for the parts between these; of the first part,
some tokens may have been passed already. -/
theorem spansBetween_shown (kind : Kind) (depth : Int) (front passed : List Token)
    (within : front ++ (passed ++ us) <+: ts) (first : lo = front.length)
    (last : hi = (front ++ (passed ++ us)).length) :
    let spans := spansBetween lo hi (placesOf kind (shown depth (front ++ passed) us))
    Spans ts spans.1.1 spans.1.2 (passed ++ (split kind depth us).1) ∧
      SpanAll ts spans.2 (split kind depth us).2 := by
  induction us generalizing front passed depth lo with
  | nil => exact ⟨⟨front, within, first, last⟩, .nil⟩
  | cons t us ih =>
    rw [split_cons, shown]
    have goesOn := ih (depthAfter depth t) front (passed ++ [t]) (by simpa using within) first
      (by simpa using last)
    rw [← List.append_assoc] at goesOn
    cases open_ : exposed depth t with
    | false => simpa using goesOn
    | true =>
      rw [if_pos rfl, placesOf_cons]
      cases same : t.kind == kind with
      | false => simpa [spotBehind, same] using goesOn
      | true =>
        have next : ((front ++ passed).length + 1 : Int) = (front ++ passed ++ [t]).length := by
          simp [Int.add_assoc]
        have behind := ih (depthAfter depth t) (front ++ passed ++ [t]) [] (by simpa using within) next
          (by simpa using last)
        simp only [List.append_nil, List.nil_append] at behind
        have here : front ++ passed <+: ts := by
          refine List.IsPrefix.trans ⟨t :: us, ?_⟩ within
          simp
        simp only [spotBehind, same, Bool.true_and, ↓reduceIte, spansBetween, List.append_nil]
        exact ⟨⟨front, here, first, rfl⟩, .cons behind.1 behind.2⟩

theorem divided_sound (kind : Kind) (spans : Spans ts lo hi us) :
    (divided (sourceOf ts tail) kind lo hi).Sound ts.length fun parts =>
      Spans ts parts.1.1 parts.1.2 (split kind 0 us).1 ∧ SpanAll ts parts.2 (split kind 0 us).2 := by
  obtain ⟨front, within, first, last⟩ := spans
  refine (topLevel_sound within first last).next ?_
  have parts := spansBetween_shown kind 0 front [] within first last
  rw [List.append_nil] at parts
  exact .pure parts

theorem stageSpans_shown (depth : Int) (front passed : List Token)
    (within : front ++ (passed ++ us) <+: ts) (first : lo = front.length)
    (last : hi = (front ++ (passed ++ us)).length) :
    let spans := stageSpans lo hi (shown depth (front ++ passed) us)
    Spans ts spans.1.1 spans.1.2 (passed ++ (segments depth us).1) ∧
      SpanAll ts spans.2 (segments depth us).2 := by
  induction us generalizing front passed depth lo with
  | nil => exact ⟨⟨front, within, first, last⟩, .nil⟩
  | cons t us ih =>
    rw [segments_cons, shown]
    have goesOn := ih (depthAfter depth t) front (passed ++ [t]) (by simpa using within) first
      (by simpa using last)
    have next : ((front ++ passed).length + 1 : Int) = (front ++ passed ++ [t]).length := by
          simp [Int.add_assoc]
    have behind := ih (depthAfter depth t) (front ++ passed ++ [t]) [] (by simpa using within) next
      (by simpa using last)
    have here : front ++ passed <+: ts := by
      refine List.IsPrefix.trans ⟨t :: us, ?_⟩ within
      simp
    rw [← List.append_assoc] at goesOn
    simp only [List.append_nil, List.nil_append] at behind
    cases open_ : exposed depth t with
    | false => simpa using goesOn
    | true =>
      rw [if_pos rfl, stageSpans]
      cases question : t.kind == .question with
      | true =>
        simp only [spotBehind, question, Bool.true_and, ↓reduceIte, List.append_nil]
        exact ⟨⟨front, here, first, rfl⟩, .cons behind.1 behind.2⟩
      | false =>
        cases exist : t.kind == .exist with
        | true =>
          simp only [spotBehind, question, exist, Bool.true_and, Bool.false_eq_true, ↓reduceIte,
            List.append_nil]
          refine ⟨⟨front, here, first, rfl⟩,
            .cons ⟨front ++ passed, ?_, rfl, ?_⟩ (.cons behind.1 behind.2)⟩
          · simpa using here
          · simp
        | false => simpa [spotBehind, question, exist] using goesOn

/-- A mark of a stage is exposed just if there are stages. -/
theorem find?_stageMark (depth : Int) (front us : List Token) :
    (((shown depth front us).find? fun p => isStageMark p.2.kind).map (·.1)).isSome =
      !(segments depth us).2.isEmpty := by
  induction us generalizing front depth with
  | nil => rfl
  | cons t us ih =>
    have later := ih (depthAfter depth t) (front ++ [t])
    rw [shown, segments_cons]
    cases open_ : exposed depth t with
    | false => simpa using later
    | true =>
      cases question : t.kind == .question with
      | true => simp [spotBehind, isStageMark, question]
      | false =>
        cases exist : t.kind == .exist with
        | true => simp [spotBehind, isStageMark, question, exist]
        | false => simpa [spotBehind, isStageMark, question, exist] using later

end Exposed

end Walkthrough.Expression.Span
