import Walkthrough.Proofs.Expression.Reading
import Walkthrough.Proofs.Span.Scan

/-! Groups, calls and operators in a span, and the text that it covers. What is read beyond the ends of
a scan is there because of what was found before: a mark of `then` has a parenthesis behind it, and a
text that looks like a call has three tokens at least. -/
namespace Walkthrough.Expression.Span

section Groups

variable {ts front us inside : List Token} {t : Token} {tail : List Char} {lo hi place depth : Int}
  {n d : Nat}

theorem closingFrom_sound (within : front ++ us <+: ts) (here : place = front.length)
    (all : n = us.length) (deep : depth = (d : Int) + 1) :
    (closingFrom (sourceOf ts tail) depth place n).Sound ts.length
      (· = ((enclosed d us).map fun p => ((front ++ p.1).length : Int)).getD (-1)) := by
  induction us generalizing front depth place n d with
  | nil =>
    subst all
    exact .pure rfl
  | cons t us ih =>
    subst all
    rw [List.length_cons, closingFrom]
    refine (look_sound within here).next ?_
    have next : place + 1 = (front ++ [t]).length := by simp [here]
    have later {depth : Int} {d : Nat} (deep : depth = (d : Int) + 1) :=
      ih (append_cons_isPrefix within) next rfl deep
    have apart := Kind.isCloser_of_isOpener t.kind
    rw [spotBehind_kind]
    by_cases opening : t.kind.isOpener = true
    · have inner := later (show depth + 1 = ((d + 1 : Nat) : Int) + 1 by omega)
      simpa [enclosed, opening, apart opening, Option.map_map, Function.comp_def] using inner
    · by_cases closing : t.kind.isCloser = true
      · rw [if_neg opening, if_pos closing]
        cases d with
        | zero =>
          rw [if_pos (by simp [deep])]
          exact .pure (by simp [enclosed, closing, here])
        | succ d =>
          have inner := later (show depth - 1 = (d : Int) + 1 by omega)
          rw [if_neg (by rw [beq_iff_eq]; omega)]
          simpa [enclosed, opening, closing, Option.map_map, Function.comp_def] using inner
      · simpa [enclosed, opening, closing, Option.map_map, Function.comp_def] using later deep

/-- The bracket in front closes at the end just if the span is a group. -/
theorem closing_sound (spans : Spans ts lo hi (t :: us)) (opening : t.kind.isOpener = true) :
    (closing (sourceOf ts tail) lo hi).Sound ts.length fun close =>
      (close == hi - 1) = (group? Kind.isOpener (t :: us)).isSome := by
  have count := spans.length
  obtain ⟨front, within, first, last⟩ := spans
  rw [closing, count, Int.toNat_natCast, List.length_cons, closingFrom]
  refine (look_sound within first).next ?_
  rw [spotBehind_kind, if_pos opening]
  refine (closingFrom_sound (d := 0) (append_cons_isPrefix within) (by simp [first]) rfl rfl).mono ?_
  rintro _ rfl
  rw [group?, if_pos opening]
  cases closed : enclosed 0 us with
  | none =>
    have inner : (-1 == hi - 1) = false := by
      rw [beq_eq_false_iff_ne, last, List.length_append, List.length_cons]
      omega
    simpa using inner
  | some found =>
    obtain ⟨inside, behind⟩ := found
    have lengths := enclosed_length closed
    have ends : (((front ++ [t] ++ inside).length : Int) == hi - 1) = behind.isEmpty := by
      rw [Bool.eq_iff_iff, beq_iff_eq, List.isEmpty_iff, ← List.length_eq_zero_iff, last]
      simp only [List.length_append, List.length_cons, List.length_nil]
      omega
    cases behind <;> simpa using ends

theorem group?_of_opens {opens : Kind → Bool} (brackets : ∀ k, opens k = true → k.isOpener = true) :
    group? opens (t :: us) = if opens t.kind then group? Kind.isOpener (t :: us) else none := by
  rw [group?, group?]
  split
  · rename_i opening
    rw [if_pos (brackets _ opening)]
  · rfl

theorem group?_eq_some_iff (opening : t.kind.isOpener = true) :
    group? Kind.isOpener (t :: us) = some inside ↔ enclosed 0 us = some (inside, []) := by
  constructor
  · intro found
    obtain ⟨opener, closer, shape, -, closing, nested⟩ := of_group? found
    cases shape
    exact enclosed_append nested closing
  · intro closed
    rw [group?, if_pos opening, closed]

theorem isGroup_sound {opens : Kind → Bool} (brackets : ∀ k, opens k = true → k.isOpener = true)
    (spans : Spans ts lo hi us) : (isGroup (sourceOf ts tail) opens lo hi).Sound ts.length
      (· = (group? opens us).isSome) := by
  have count := spans.length
  rw [isGroup]
  split
  · rename_i short
    refine .pure ?_
    cases found : group? opens us with
    | none => rfl
    | some inside =>
      obtain ⟨opener, closer, rfl, -⟩ := of_group? found
      simp only [List.length_append, List.length_cons, List.length_nil] at count
      omega
  · cases us with
    | nil =>
      rw [List.length_nil] at count
      omega
    | cons t us =>
      have here := spans
      obtain ⟨front, within, first, last⟩ := here
      refine (look_sound within first).next ?_
      rw [group?_of_opens brackets]
      rw [spotBehind_kind]
      by_cases opening : opens t.kind = true
      · rw [if_pos opening, if_pos opening]
        exact (closing_sound spans (brackets _ opening)).bind fun close ends => .pure ends
      · rw [if_neg opening, if_neg opening]
        exact .pure rfl

theorem Spans.within_group {opens : Kind → Bool} (spans : Spans ts lo hi us)
    (found : group? opens us = some inside) : Spans ts (lo + 1) (hi - 1) inside := by
  obtain ⟨opener, closer, rfl, -⟩ := of_group? found
  obtain ⟨front, within, rfl, rfl⟩ := spans
  refine ⟨front ++ [opener], ?_, by simp, by simp; omega⟩
  exact List.IsPrefix.trans ⟨[closer], by simp⟩ within

end Groups

section Calls

variable {ts front us : List Token} {t : Token} {tail : List Char} {lo hi place depth : Int}

theorem marksThen_sound (within : front ++ t :: us <+: ts) (here : place = front.length)
    (last : hi = (front ++ t :: us).length) : (marksThen (sourceOf ts tail) place hi).Sound ts.length
      (· = isThenMark (t :: us)) := by
  have few : us.length < 2 ↔ hi ≤ place + 2 := by
    rw [here, last, List.length_append, List.length_cons]
    omega
  rw [marksThen]
  split
  · rename_i short
    refine .pure ?_
    rcases us with _ | ⟨u, _ | ⟨v, us⟩⟩
    · rfl
    · rfl
    · exact absurd (few.mpr short) (by simp)
  · rename_i long
    rcases us with _ | ⟨u, _ | ⟨v, us⟩⟩
    · exact absurd (few.mp (by simp)) long
    · exact absurd (few.mp (by simp)) long
    · refine (look_sound within here).next ?_
      cases question : t.kind == .question with
      | false =>
        simp only [spotBehind, question, Bool.false_eq_true, ↓reduceIte]
        exact .pure (by simp [isThenMark, question])
      | true =>
        simp only [spotBehind, question, ↓reduceIte]
        have second := append_cons_isPrefix within
        refine (look_sound second (by simp [here])).next ?_
        refine (look_sound (append_cons_isPrefix second) (by simp [here])).next ?_
        refine .pure ?_
        have touches (front gap : List Char) :
            ((front ++ gap).length == front.length) = gap.isEmpty := by
          cases gap <;> simp
        cases word : u.kind == .word with
        | false => simp [isThenMark, spotBehind, word]
        | true =>
          have value : u.value = u.lexeme := by
            rw [Token.value, if_neg (by rw [beq_iff_eq.mp word]; decide)]
          simp only [isThenMark, spotBehind, question, word, value, touches, Bool.true_and]

theorem thenMarks_sound (depth : Int) (within : front ++ us <+: ts) (last : hi = (front ++ us).length) :
    (thenMarks (sourceOf ts tail) hi (shown depth front us)).Sound ts.length fun marks =>
      marks.getLast? = (lastThen depth us).map fun p => ((front ++ p.1).length : Int) := by
  induction us generalizing front depth with
  | nil => exact .pure rfl
  | cons t us ih =>
    have later := ih (depthAfter depth t) (append_cons_isPrefix within) (by simpa using last)
    rw [shown, lastThen]
    cases open_ : exposed depth t with
    | false =>
      refine later.mono fun marks same => ?_
      rw [same]
      cases lastThen (depthAfter depth t) us <;> simp
    | true =>
      rw [if_pos rfl, thenMarks]
      refine (marksThen_sound within rfl last).next ?_
      refine later.bind fun marks same => ?_
      refine .pure ?_
      cases found : lastThen (depthAfter depth t) us with
      | some p =>
        rw [found] at same
        have nonempty : marks ≠ [] := by
          rintro rfl
          cases same
        obtain ⟨m, ms, rfl⟩ := List.exists_cons_of_ne_nil nonempty
        cases isThenMark (t :: us) <;> simpa using same
      | none =>
        rw [found] at same
        cases List.getLast?_eq_none_iff.mp same
        cases isThenMark (t :: us) <;> simp

/-- A call of `then` is found where the condition of tokens and their branches are. -/
def Branched (ts : List Token) (lo : Int) {n : Nat} (spans : Int × (Int × Int) × (Int × Int))
    (found : Shorter n × Shorter n × Shorter n) : Prop :=
  Spans ts lo spans.1 found.1.val ∧ Spans ts spans.2.1.1 spans.2.1.2 found.2.1.val ∧
    Spans ts spans.2.2.1 spans.2.2.2 found.2.2.val

theorem branches_sound (spans : Spans ts lo hi us) :
    (branches (sourceOf ts tail) lo hi).Sound ts.length fun found =>
      Option.Rel (Branched ts lo) found (conditional? us) := by
  have here := spans
  obtain ⟨front, within, first, last⟩ := here
  refine (topLevel_sound within first last).next ?_
  refine (thenMarks_sound 0 within last).bind fun marks same => ?_
  cases marked : lastThen 0 us with
  | none =>
    rw [marked] at same
    rw [same, conditional?_of_unmarked marked]
    exact .pure .none
  | some p =>
    obtain ⟨before, behind⟩ := p
    rw [marked, Option.map_some, List.length_append, Int.natCast_add, ← first] at same
    rw [same]
    obtain ⟨mark, word, paren, shape, -, -, kind, -⟩ := of_lastThen marked
    rw [shape] at spans
    have called : Spans ts (lo + before.length + 2) hi (paren :: behind) := by
      have := spans.behind.next.next
      rwa [Int.add_assoc] at this
    have opening : paren.kind.isOpener = true := by rw [kind]; rfl
    dsimp only
    split
    · rename_i given
      have given : before ≠ [] := by
        rintro rfl
        simp at given
      refine (closing_sound called opening).bind fun close ends => ?_
      rw [ends]
      cases closed : group? Kind.isOpener (paren :: behind) with
      | none =>
        rw [conditional?_eq_none marked fun inside _ _ _ closed' => ?_]
        · exact .pure .none
        · cases closed.symm.trans ((group?_eq_some_iff opening).mpr closed')
      | some inside =>
        have closed' := (group?_eq_some_iff opening).mp closed
        have arguments := called.within_group closed
        rw [Int.add_assoc] at arguments
        refine (divided_sound .comma arguments).bind ?_
        rintro ⟨first, rest⟩ ⟨yes, others⟩
        dsimp only at yes others
        rcases parts : split .comma 0 inside with ⟨y, ns⟩
        rw [parts] at yes others
        have missing (several : ∀ n, ns ≠ [n]) : conditional? us = none := by
          refine conditional?_eq_none marked fun inside' _ n _ closed'' two => ?_
          cases closed'.symm.trans closed''
          cases parts.symm.trans two
          exact several n rfl
        cases others with
        | nil =>
          rw [missing (by simp)]
          exact .pure .none
        | cons no others =>
          cases others with
          | cons =>
            rw [missing (by simp)]
            exact .pure .none
          | nil =>
            obtain ⟨c, y', n', found, rfl, rfl, rfl⟩ :=
              conditional?_of_marked marked given closed' parts
            rw [found]
            exact .pure (.some ⟨spans.before, yes, no⟩)
    · rename_i empty
      rw [conditional?_eq_none marked fun _ _ _ given _ => ?_]
      · exact .pure .none
      · have := List.length_pos_iff.mpr given
        omega

end Calls

section Operators

variable {ts us : List Token} {tail : List Char} {lo hi : Int} {α : Type}

/-- The first operator that divides tokens, and the first two parts. -/
def sidesOf? (us : List Token) (operators : List (Kind × α)) :
    Option (α × Shorter us.length × Shorter us.length) :=
  operators.findSome? fun (kind, x) =>
    match divide? kind us with
    | some (left, right :: _) => some (x, left, right)
    | _ => none

def Sided (ts : List Token) {n : Nat} (spans : α × (Int × Int) × (Int × Int))
    (found : α × Shorter n × Shorter n) : Prop :=
  spans.1 = found.1 ∧ Spans ts spans.2.1.1 spans.2.1.2 found.2.1.val ∧
    Spans ts spans.2.2.1 spans.2.2.2 found.2.2.val

theorem sides_sound (operators : List (Kind × α)) (spans : Spans ts lo hi us) :
    (sides (sourceOf ts tail) lo hi operators).Sound ts.length fun found =>
      Option.Rel (Sided ts) found (sidesOf? us operators) := by
  induction operators with
  | nil => exact .pure .none
  | cons operator operators ih =>
    obtain ⟨kind, x⟩ := operator
    rw [sides, sidesOf?, List.findSome?_cons]
    refine (divided_sound kind spans).bind ?_
    rintro ⟨left, rest⟩ ⟨first, others⟩
    dsimp only at first others ⊢
    rcases parts : split kind 0 us with ⟨l, rs⟩
    rw [parts] at first others
    cases others with
    | nil =>
      rw [divide?_of_one (by rw [parts])]
      exact ih
    | cons right others =>
      obtain ⟨f, r, divided, rfl, same⟩ := divide?_of_parts parts
      obtain ⟨g, more, rfl, rfl, -⟩ := List.map_eq_cons_iff.mp same
      rw [divided]
      exact .pure (.some ⟨rfl, first, right⟩)

end Operators

section Texts

variable {ts us front : List Token} {a b last : Token} {tail rest : List Char} {lo hi : Int}

theorem extract_sourceOf {done middle : List Char}
    (text : textBehind ts ++ tail = done ++ (middle ++ rest)) :
    (sourceOf ts tail).text.extract done.length (done ++ middle).length = middle := by
  rw [sourceOf, text, List.length_append]
  exact extract_middle done middle rest

theorem covered_sound (spans : Spans ts lo hi us) :
    (covered (sourceOf ts tail) lo hi).Sound ts.length (· = raw us) := by
  have count := spans.length
  obtain ⟨front, within, first, last⟩ := spans
  rw [covered]
  split
  · rename_i empty
    have none : us = [] := List.eq_nil_of_length_eq_zero (by omega)
    subst none
    exact .pure rfl
  · rename_i solid
    cases us with
    | nil =>
      rw [List.length_nil] at count
      omega
    | cons t us =>
      refine (look_sound within first).next ?_
      obtain ⟨init, u, shape⟩ := (List.eq_nil_or_concat' (t :: us)).resolve_left (List.cons_ne_nil t us)
      have final : front ++ init ++ u :: [] <+: ts := by
        rwa [List.append_assoc, ← shape]
      refine (look_sound final (by simp [last, shape]; omega)).next ?_
      refine .pure ?_
      obtain ⟨back, whole⟩ := within
      have text : textBehind ts ++ tail =
          (textBehind front ++ t.gap) ++ (raw (t :: us) ++ (textBehind back ++ tail)) := by
        simp [← whole, textBehind_append, raw]
      have stop : textBehind (front ++ init ++ [u]) = textBehind front ++ t.gap ++ raw (t :: us) := by
        rw [List.append_assoc, ← shape]
        simp [textBehind_append, raw]
      simp only [spotBehind, stop]
      exact extract_sourceOf text

theorem argumentOf_sound (spans : Spans ts lo hi (a :: b :: us ++ [last])) :
    (argumentOf (sourceOf ts tail) lo hi).Sound ts.length (· = argument (us ++ [last])) := by
  obtain ⟨front, within, rfl, rfl⟩ := spans
  have second : front ++ [a] ++ b :: (us ++ [last]) <+: ts := by simpa using within
  have final : front ++ (a :: b :: us) ++ last :: [] <+: ts := by simpa using within
  refine (look_sound second (by simp)).next ?_
  refine (look_sound final (by simp; omega)).next ?_
  refine .pure ?_
  obtain ⟨back, whole⟩ := within
  have text : textBehind ts ++ tail = textBehind (front ++ [a] ++ [b]) ++
      (argument (us ++ [last]) ++ (last.lexeme ++ (textBehind back ++ tail))) := by
    simp [← whole, textBehind_append, argument_concat]
  have start : textBehind (front ++ (a :: b :: us)) ++ last.gap =
      textBehind (front ++ [a] ++ [b]) ++ argument (us ++ [last]) := by
    simp [textBehind_append, argument_concat]
  simp only [spotBehind, start]
  exact extract_sourceOf text

theorem eq_paren_of_heads {t : Token} {more : List Char} (heads : t.Heads rest)
    (text : t.gap ++ t.lexeme ++ rest = '(' :: more) : t = sign .leftParen [] := by
  obtain ⟨kind, gap, lexeme⟩ := t
  obtain ⟨blank, c, cs, spelled, -, extent⟩ := heads
  cases spelled
  cases gap with
  | cons g gap =>
    cases text
    cases (List.all_eq_true.mp blank) _ List.mem_cons_self
  | nil =>
    obtain ⟨rfl, -⟩ := List.cons.inj text
    have single : extent? '(' (cs ++ rest) = some (.leftParen, 0) :=
      extent?_eq_some.mpr (.single rfl rfl rfl)
    obtain ⟨rfl, none⟩ := Prod.mk.inj (Option.some.inj (single.symm.trans extent))
    cases List.eq_nil_of_length_eq_zero none.symm
    rfl

/-- No word goes on with a parenthesis, so a name in front of one is a token, and it is the next. -/
theorem exists_paren {name : String} {more : List Char} (word : IsWord name) (legible : Legible us rest)
    (text : raw us = name.toList ++ '(' :: more) :
    ∃ first vs, us = first :: sign .leftParen [] :: vs := by
  obtain ⟨c, cs, spelled, -, continues⟩ := isWord_iff.mp word
  rw [spelled] at text
  cases us with
  | nil => cases text
  | cons first us =>
    obtain ⟨⟨-, d, ds, lexeme, -, extent⟩, later⟩ := legible
    rw [raw, lexeme] at text
    obtain ⟨rfl, behind⟩ := List.cons.inj text
    have behind : ds ++ textBehind us = cs ++ '(' :: more := behind
    have goes : extent? d (ds ++ (textBehind us ++ rest)) = some (.word, cs.length) := by
      rw [← List.append_assoc, behind, List.append_assoc]
      exact continues.extent? (apart_cons rfl (more ++ rest))
    have length : ds.length = cs.length := congrArg Prod.snd (Option.some.inj (extent.symm.trans goes))
    obtain ⟨-, behind⟩ := List.append_inj behind length
    cases us with
    | nil => cases behind
    | cons second us =>
      have text : second.gap ++ second.lexeme ++ (textBehind us ++ rest) = '(' :: (more ++ rest) := by
        rw [← List.append_assoc, ← textBehind_cons, behind, List.cons_append]
      exact ⟨first, us, by rw [eq_paren_of_heads later.1 text]⟩

/-- A text that looks like a call is one: a word, a parenthesis, and a last token that is another. -/
theorem exists_call {name : String} (word : IsWord name) (legible : Legible us rest)
    (call : isCall name (raw us) = true) :
    ∃ first middle last, us = first :: sign .leftParen [] :: middle ++ [last] := by
  rw [isCall, Bool.and_eq_true, beq_iff_eq, List.isPrefixOf_iff_prefix] at call
  obtain ⟨⟨more, text⟩, ends⟩ := call
  rw [List.append_assoc] at text
  obtain ⟨first, vs, rfl⟩ := exists_paren word legible text.symm
  rcases List.eq_nil_or_concat' vs with rfl | ⟨middle, last, rfl⟩
  · simp [raw, Kind.sign] at ends
  · exact ⟨first, middle, last, rfl⟩

end Texts

end Walkthrough.Expression.Span
