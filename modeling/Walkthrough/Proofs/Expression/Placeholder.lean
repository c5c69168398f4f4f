import Walkthrough.Proofs.Expression.Expansion
import Walkthrough.Proofs.Expression.Tiling
import Walkthrough.Proofs.Text.Parts

/-! Where placeholders are in a text, whatever it holds. Each begins at the first opening behind the one
before and ends at the brace that brings the depth back to zero, and they end at an opening that no
brace closes; so a text that is filled keeps every character outside of them. -/
namespace Walkthrough.Expression

/-- The quote that is open behind a character. A quote behind a backslash opens and closes nothing, nor
does one of the other kind inside of quotes. -/
def openBehind (quote : Option Char) (before c : Char) : Option Char :=
  if isQuote c && before != '\\' then
    if quote == some c then none else if quote.isNone then some c else quote
  else quote

/-- The characters outside of quotes, seen from an open quote and the character before. -/
def unquoted (quote : Option Char) (before : Char) : List Char → List Char
  | [] => []
  | c :: cs =>
    let quote := openBehind quote before c
    if quote.isNone then c :: unquoted quote c cs else unquoted quote c cs

/-- Braces that are opened but not closed, outside of quotes. -/
def braceDepth (quote : Option Char) (before : Char) (cs : List Char) : Int :=
  (unquoted quote before cs).count '\x7b' - (unquoted quote before cs).count '\x7d'

section Places

variable (cs : List Char)

/-- The first opening at a place or behind it. -/
structure FirstOpening (place start : Nat) : Prop where
  reached : place ≤ start
  opens : opening <+: cs.drop start
  first : ∀ i, place ≤ i → i < start → ¬opening <+: cs.drop i

/-- At a closing brace, the depth counted from the brace of an opening on is zero again. -/
structure ReturnsAt (start i : Nat) : Prop where
  behind : start + 1 < i
  brace : cs[i]? = some '\x7d'
  depth : braceDepth none '$' (cs.extract (start + 1) (i + 1)) = 0

structure Closes (start stop : Nat) : Prop where
  returns : ReturnsAt cs start (stop - 1)
  first : ∀ i, i < stop - 1 → ¬ReturnsAt cs start i

/-- Spans found from a place on: each from the first opening behind the one before, up to where it is
closed, until there is no opening or the first one is never closed. -/
inductive Located : Nat → List (Nat × Nat) → Prop where
  | done {place : Nat} (unclosed : ∀ start, FirstOpening cs place start → ∀ i, ¬ReturnsAt cs start i) :
    Located place []
  | hole {place start stop : Nat} {spans : List (Nat × Nat)} (opens : FirstOpening cs place start)
    (closes : Closes cs start stop) (later : Located stop spans) :
    Located place ((start, stop) :: spans)

/-- The parts of a text in front of spans, between them and behind. -/
def between (place : Nat) : List (Nat × Nat) → List (List Char)
  | [] => [cs.drop place]
  | (start, stop) :: spans => cs.extract place start :: between stop spans

def isOutside (spans : List (Nat × Nat)) (i : Nat) : Bool :=
  spans.all fun (start, stop) => i < start || stop ≤ i

def outside (spans : List (Nat × Nat)) : List Char :=
  (cs.zipIdx.filter fun (_, i) => isOutside spans i).map Prod.fst

end Places

/-- Parts with values put between them. -/
def woven : List (List Char) → List (List Char) → List Char
  | part :: parts, value :: values => part ++ value ++ woven parts values
  | parts, _ => parts.flatten

section Depth

variable {n : Nat} {quote : Option Char} {before : Char} {behind inner rest : List Char}

def weight (quote : Option Char) (c : Char) : Int :=
  if quote.isSome then 0 else if c == '\x7b' then 1 else if c == '\x7d' then -1 else 0

theorem braceDepth_nil : braceDepth quote before [] = 0 := rfl

theorem braceDepth_cons (c : Char) (cs : List Char) : braceDepth quote before (c :: cs) =
    weight (openBehind quote before c) c + braceDepth (openBehind quote before c) c cs := by
  unfold braceDepth
  rw [unquoted]
  generalize openBehind quote before c = after
  cases after with
  | some q => simp [weight]
  | none =>
    rw [if_pos (by rfl)]
    by_cases opens : c = '\x7b'
    · subst opens
      rw [List.count_cons_self, List.count_cons_of_ne (by decide), show weight none '\x7b' = 1 from rfl]
      omega
    · by_cases closes : c = '\x7d'
      · subst closes
        rw [List.count_cons_self, List.count_cons_of_ne (by decide),
          show weight none '\x7d' = -1 from rfl]
        omega
      · simp [weight, opens, closes]

theorem weight_of_quote {c : Char} (quoted : isQuote c = true) : weight quote c = 0 := by
  simp only [isQuote, Bool.or_eq_true, beq_iff_eq] at quoted
  rcases quoted with rfl | rfl <;> simp [weight]

/-- The search ends at the brace that takes the depth from one to zero, and goes on at any other
character. -/
theorem closeHole_cons_weight (n : Nat) (c : Char) (cs : List Char) :
    let after := openBehind quote before c
    (c = '\x7d' ∧ n + 1 + weight after c = 0 ∧ closeHole n quote before (c :: cs) = some ([], cs)) ∨
      ∃ m : Nat, (m + 1 : Int) = n + 1 + weight after c ∧
        closeHole n quote before (c :: cs) = grown [c] (closeHole m after c cs) := by
  intro after
  rw [closeHole_cons]
  by_cases toggles : (isQuote c && before != '\\') = true
  · rw [Bool.and_eq_true] at toggles
    have light : weight after c = 0 := weight_of_quote toggles.1
    rw [← Bool.and_eq_true] at toggles
    exact .inr ⟨n, by rw [light, Int.add_zero], by simp only [after, openBehind, if_pos toggles]⟩
  · have same : after = quote := if_neg toggles
    rw [if_neg toggles, same]
    cases quote with
    | some q => exact .inr ⟨n, by simp [weight], rfl⟩
    | none =>
      by_cases opens : c = '\x7b'
      · exact .inr ⟨n + 1, by simp [weight, opens], by simp [opens]⟩
      · by_cases closes : c = '\x7d'
        · have falls : weight none c = -1 := by rw [closes]; rfl
          cases n with
          | zero => exact .inl ⟨closes, by rw [falls]; rfl, by simp [closes]⟩
          | succ m => exact .inr ⟨m, by rw [falls]; omega, by simp [closes]⟩
        · exact .inr ⟨n, by simp [weight, opens, closes], by simp [opens, closes]⟩

/-- A search finds the first brace at which the depth is zero. -/
theorem of_closeHole_eq_some (found : closeHole n quote before behind = some (inner, rest)) :
    behind = inner ++ '\x7d' :: rest ∧ n + 1 + braceDepth quote before (inner ++ ['\x7d']) = 0 ∧
      ∀ k ≤ inner.length, 0 < n + 1 + braceDepth quote before (inner.take k) := by
  induction behind generalizing n quote before inner with
  | nil => cases found
  | cons c cs ih =>
    rcases closeHole_cons_weight n c cs with ⟨rfl, zero, here⟩ | ⟨m, depth, later⟩
    · cases here.symm.trans found
      refine ⟨rfl, ?_, fun k none => ?_⟩
      · rw [List.nil_append, braceDepth_cons, braceDepth_nil, Int.add_zero, zero]
      · rw [List.take_nil, braceDepth_nil]
        omega
    · obtain ⟨⟨inner', rest'⟩, found', same⟩ := Option.map_eq_some_iff.mp (later.symm.trans found)
      cases same
      obtain ⟨rfl, zero, positive⟩ := ih found'
      refine ⟨rfl, ?_, fun k few => ?_⟩
      · rw [List.singleton_append, List.cons_append, braceDepth_cons]
        omega
      · cases k with
        | zero =>
          rw [List.take_zero, braceDepth_nil]
          omega
        | succ k =>
          have := positive k (Nat.le_of_succ_le_succ few)
          rw [List.singleton_append, List.take_succ_cons, braceDepth_cons]
          omega

theorem of_closeHole_eq_none (missing : closeHole n quote before behind = none) (k : Nat) :
    0 < n + 1 + braceDepth quote before (behind.take k) := by
  induction behind generalizing n quote before k with
  | nil =>
    rw [List.take_nil, braceDepth_nil]
    omega
  | cons c cs ih =>
    rcases closeHole_cons_weight n c cs with ⟨rfl, zero, here⟩ | ⟨m, depth, later⟩
    · cases here.symm.trans missing
    · cases k with
      | zero =>
        rw [List.take_zero, braceDepth_nil]
        omega
      | succ k =>
        have := ih (Option.map_eq_none_iff.mp (later.symm.trans missing)) k
        rw [List.take_succ_cons, braceDepth_cons]
        omega

end Depth

section Finding

variable {cs front behind inner rest : List Char} {place start stop i k : Nat}
  {spans : List (Nat × Nat)}

theorem firstOpening_of_cutAt? {before : List Char}
    (cut : Text.cutAt? opening cs = some (before, behind)) :
    FirstOpening (front ++ cs) front.length (front.length + before.length) := by
  refine ⟨Nat.le_add_right .., ?_, fun i reached earlier => ?_⟩
  · rw [Text.eq_of_cutAt? cut, List.append_assoc before, ← List.append_assoc front,
      ← List.length_append, List.drop_left]
    exact List.prefix_append ..
  · obtain ⟨k, rfl⟩ := Nat.exists_eq_add_of_le reached
    rw [List.drop_length_add_append]
    exact Text.not_prefix_of_cutAt? cut (by omega)

theorem braceDepth_opening (cs : List Char) :
    braceDepth none '$' ('\x7b' :: cs) = 1 + braceDepth none '\x7b' cs := by
  rw [braceDepth_cons]
  rfl

theorem returnsAt_iff : ReturnsAt (front ++ opening ++ behind) front.length i ↔
    ∃ k, i = front.length + 2 + k ∧ behind[k]? = some '\x7d' ∧
      1 + braceDepth none '\x7b' (behind.take (k + 1)) = 0 := by
  have shape : front ++ opening ++ behind = (front ++ ['$']) ++ '\x7b' :: behind := by simp [opening]
  have length : (front ++ ['$']).length = front.length + 1 := by simp
  have inside (k : Nat) : (front ++ opening ++ behind).extract (front.length + 1)
      (front.length + 2 + k + 1) = '\x7b' :: behind.take (k + 1) := by
    have count : front.length + 2 + k + 1 - (front.length + 1) = k + 1 + 1 := by omega
    rw [List.extract_eq_take_drop, count, shape, ← length, List.drop_left, List.take_succ_cons]
  have brace (k : Nat) : (front ++ opening ++ behind)[front.length + 2 + k]? = behind[k]? := by
    rw [List.getElem?_append_right (by simp [opening])]
    simp [opening]
  constructor
  · rintro ⟨later, closing, depth⟩
    obtain ⟨k, rfl⟩ := Nat.exists_eq_add_of_le (show front.length + 2 ≤ i from later)
    rw [inside, braceDepth_opening] at depth
    exact ⟨k, rfl, (brace k).symm.trans closing, depth⟩
  · rintro ⟨k, rfl, closing, depth⟩
    refine ⟨by omega, (brace k).trans closing, ?_⟩
    rw [inside, braceDepth_opening, depth]

theorem closes_of_closeHole (found : closeHole 0 none '\x7b' behind = some (inner, rest)) :
    Closes (front ++ opening ++ behind) front.length (front.length + inner.length + 3) := by
  obtain ⟨shape, zero, positive⟩ := of_closeHole_eq_some found
  refine ⟨returnsAt_iff.mpr ⟨inner.length, by omega, ?_, ?_⟩, fun i earlier returns => ?_⟩
  · rw [shape]
    simp
  · have taken : behind.take (inner.length + 1) = inner ++ ['\x7d'] := by
      rw [shape, List.take_length_add_append]
      rfl
    rw [taken]
    simpa using zero
  · obtain ⟨k, rfl, -, depth⟩ := returnsAt_iff.mp returns
    have taken : behind.take (k + 1) = inner.take (k + 1) := by
      rw [shape, List.take_append_of_le_length (by omega)]
    have := positive (k + 1) (by omega)
    rw [taken] at depth
    omega

theorem not_returnsAt_of_closeHole (missing : closeHole 0 none '\x7b' behind = none) (i : Nat) :
    ¬ReturnsAt (front ++ opening ++ behind) front.length i := by
  intro returns
  obtain ⟨k, -, -, depth⟩ := returnsAt_iff.mp returns
  have := of_closeHole_eq_none missing (k + 1)
  omega

theorem FirstOpening.unique {start' : Nat} (opens : FirstOpening cs place start)
    (opens' : FirstOpening cs place start') : start = start' := by
  rcases Nat.lt_trichotomy start start' with earlier | same | later
  · exact absurd opens.opens (opens'.first _ opens.reached earlier)
  · exact same
  · exact absurd opens'.opens (opens.first _ opens'.reached later)

theorem length_hole (front before inner : List Char) :
    (front ++ before ++ opening ++ inner ++ ['\x7d']).length =
      front.length + before.length + inner.length + 3 := by
  simp only [opening, List.length_append, List.length_cons, List.length_nil]
  omega

theorem located_ofText (front cs : List Char) :
    Located (front ++ cs) front.length (Template.spans.go front.length (Template.ofText cs).holes) := by
  induction cs using Template.ofText.induct generalizing front with
  | case1 cs uncut =>
    rw [Template.ofText_of_uncut uncut]
    refine .done fun start opens => absurd opens.opens ?_
    obtain ⟨k, rfl⟩ := Nat.exists_eq_add_of_le opens.reached
    rw [List.drop_length_add_append]
    exact Text.not_prefix_of_cutAt?_none uncut k
  | case2 cs before behind cut unclosed =>
    rw [Template.ofText_of_unclosed cut unclosed]
    refine .done fun start opens i => ?_
    cases opens.unique (firstOpening_of_cutAt? cut)
    rw [Text.eq_of_cutAt? cut, List.append_assoc before, ← List.append_assoc front, ← List.append_assoc,
      ← List.length_append]
    exact not_returnsAt_of_closeHole unclosed i
  | case3 cs before behind cut inner rest closed ih =>
    rw [Template.ofText_of_closed cut closed, Template.spans.go]
    have closes : Closes (front ++ cs) (front.length + before.length)
        (front.length + before.length + inner.length + 3) := by
      rw [Text.eq_of_cutAt? cut, List.append_assoc before, ← List.append_assoc front,
        ← List.append_assoc, ← List.length_append]
      exact closes_of_closeHole closed
    refine .hole (firstOpening_of_cutAt? cut) closes ?_
    have shape : front ++ cs = front ++ before ++ opening ++ inner ++ ['\x7d'] ++ rest := by
      rw [Text.eq_of_cutAt? cut, (of_closeHole_eq_some closed).1]
      simp
    rw [shape, ← length_hole]
    exact ih _

theorem Located.bounds (located : Located cs place spans) :
    ∀ span ∈ spans, place ≤ span.1 ∧ span.1 < span.2 ∧ span.2 ≤ cs.length := by
  induction located with
  | done => exact List.forall_mem_nil _
  | hole opens closes later ih =>
    have reached := opens.reached
    have behind := closes.returns.behind
    obtain ⟨within, -⟩ := List.getElem?_eq_some_iff.mp closes.returns.brace
    refine List.forall_mem_cons.mpr ⟨by omega, fun span listed => ?_⟩
    have := ih span listed
    omega

theorem Located.pairwise (located : Located cs place spans) :
    spans.Pairwise fun a b => a.2 ≤ b.1 := by
  induction located with
  | done => exact .nil
  | hole opens closes later ih => exact .cons (fun span listed => (later.bounds span listed).1) ih

end Finding

section Filling

variable {cs : List Char} {place : Nat} {spans : List (Nat × Nat)}

theorem text_ofText (cs : List Char) : (Template.ofText cs).text = cs := by
  induction cs using Template.ofText.induct with
  | case1 cs uncut =>
    rw [Template.ofText_of_uncut uncut, Template.text, List.flatMap_nil, List.nil_append]
  | case2 cs before behind cut unclosed =>
    rw [Template.ofText_of_unclosed cut unclosed, Template.text, List.flatMap_nil, List.nil_append]
  | case3 cs before behind cut inner rest closed ih =>
    rw [Template.text] at ih
    rw [Template.ofText_of_closed cut closed, Template.text, List.flatMap_cons, List.append_assoc, ih,
      Text.eq_of_cutAt? cut, (of_closeHole_eq_some closed).1]
    simp

/-- The spans of a template part its text into what is plain and what is inside. -/
theorem spans_go_parts (front tail : List Char) (holes : List (List Char × List Char)) :
    let cs := front ++ Template.text ⟨holes, tail⟩
    let spans := Template.spans.go front.length holes
    between cs front.length spans = holes.map Prod.fst ++ [tail] ∧
      spans.map (fun (start, stop) => cs.extract (start + 2) (stop - 1)) = holes.map Prod.snd := by
  induction holes generalizing front with
  | nil => exact ⟨by simp [Template.spans.go, between, Template.text], rfl⟩
  | cons hole holes ih =>
    obtain ⟨before, inner⟩ := hole
    have shape : front ++ Template.text ⟨(before, inner) :: holes, tail⟩ =
        front ++ before ++ opening ++ inner ++ ['\x7d'] ++ Template.text ⟨holes, tail⟩ := by
      simp [Template.text]
    have start : front.length + before.length + 2 = (front ++ before ++ opening).length := by
      rw [List.length_append, List.length_append]
      rfl
    obtain ⟨parts, insides⟩ := ih (front ++ before ++ opening ++ inner ++ ['\x7d'])
    rw [length_hole, ← shape] at parts insides
    simp only [Template.spans.go, between, List.map_cons, List.cons_append, parts, insides]
    constructor
    · rw [shape, List.append_assoc (_ ++ opening), List.append_assoc (_ ++ opening), List.append_assoc,
        List.append_assoc, extract_middle]
    · rw [shape, List.append_assoc (_ ++ inner), List.append_assoc, start,
        show front.length + before.length + inner.length + 3 - 1 =
          (front ++ before ++ opening).length + inner.length by omega, extract_middle]

theorem woven_holes {R : List Char × List Char → String → Prop}
    {holes : List (List Char × List Char)} {texts : List String} (each : List.Forall₂ R holes texts)
    (tail : List Char) : woven (holes.map Prod.fst ++ [tail]) (texts.map String.toList) =
      (holes.zip texts).flatMap (fun (hole, s) => hole.1 ++ s.toList) ++ tail := by
  induction each with
  | nil => simp [woven]
  | cons _ _ ih => simpa [woven] using ih

theorem drop_eq_extract_append {a b : Nat} (ordered : a ≤ b) :
    cs.drop a = cs.extract a b ++ cs.drop b := by
  rw [List.extract_eq_take_drop]
  nth_rewrite 1 [← List.take_append_drop (b - a) (cs.drop a)]
  rw [List.drop_drop, Nat.add_sub_cancel' ordered]

theorem length_extract {a b : Nat} (within : b ≤ cs.length) : (cs.extract a b).length = b - a := by
  rw [List.extract_eq_take_drop, List.length_take, List.length_drop]
  omega

theorem isOutside_cons (start stop i : Nat) (spans : List (Nat × Nat)) :
    isOutside ((start, stop) :: spans) i = ((i < start || stop ≤ i) && isOutside spans i) := rfl

theorem isOutside_of_lt {i : Nat} (earlier : ∀ span ∈ spans, i < span.1) :
    isOutside spans i = true := by
  rw [isOutside, List.all_eq_true]
  intro span listed
  simp [earlier span listed]

/-- Spans in order leave the characters outside of them. -/
theorem flatten_between (bounds : ∀ span ∈ spans, place ≤ span.1 ∧ span.1 < span.2 ∧ span.2 ≤ cs.length)
    (ordered : spans.Pairwise fun a b => a.2 ≤ b.1) : (between cs place spans).flatten =
      (((cs.drop place).zipIdx place).filter fun (_, i) => isOutside spans i).map Prod.fst := by
  induction spans generalizing place with
  | nil => simp [between, isOutside]
  | cons span spans ih =>
    obtain ⟨start, stop⟩ := span
    obtain ⟨⟨reached, proper, within⟩, others⟩ := List.forall_mem_cons.mp bounds
    obtain ⟨behind, ordered⟩ := List.pairwise_cons.mp ordered
    dsimp only at reached proper within behind
    have later := ih (fun span listed => ⟨behind span listed, (others span listed).2⟩) ordered
    have plain : (cs.extract place start).length = start - place := length_extract (by omega)
    have hidden : (cs.extract start stop).length = stop - start := length_extract within
    -- characters in front of the span are in front of all later ones, too
    have kept : ((cs.extract place start).zipIdx place).filter
        (fun (_, i) => isOutside ((start, stop) :: spans) i) =
          (cs.extract place start).zipIdx place := by
      rw [List.filter_eq_self]
      rintro ⟨c, i⟩ listed
      have upper := (List.mem_zipIdx listed).2.1
      refine isOutside_of_lt (List.forall_mem_cons.mpr ⟨by omega, fun span listed => ?_⟩)
      have := behind span listed
      omega
    have dropped : ((cs.extract start stop).zipIdx start).filter
        (fun (_, i) => isOutside ((start, stop) :: spans) i) = [] := by
      rw [List.filter_eq_nil_iff]
      rintro ⟨c, i⟩ listed
      obtain ⟨lower, upper, -⟩ := List.mem_zipIdx listed
      simp only [isOutside_cons, Bool.and_eq_true, Bool.or_eq_true, decide_eq_true_eq]
      omega
    have same : ((cs.drop stop).zipIdx stop).filter
        (fun (_, i) => isOutside ((start, stop) :: spans) i) =
          ((cs.drop stop).zipIdx stop).filter fun (_, i) => isOutside spans i := by
      refine List.filter_congr ?_
      rintro ⟨c, i⟩ listed
      simp [isOutside_cons, (List.mem_zipIdx listed).1]
    rw [drop_eq_extract_append reached, drop_eq_extract_append (Nat.le_of_lt proper),
      List.zipIdx_append, List.zipIdx_append, plain, hidden, Nat.add_sub_cancel' reached,
      Nat.add_sub_cancel' (Nat.le_of_lt proper), List.filter_append, List.filter_append, kept, dropped,
      same, List.nil_append, List.map_append, List.zipIdx_map_fst, between, List.flatten_cons, later]

theorem woven_between (cs : List Char) (value : List Char → Except Fault String) :
    let spans := (Template.ofText cs).spans
    (do
      let values ← spans.mapM fun (start, stop) => value (cs.extract (start + 2) (stop - 1))
      return String.ofList (woven (between cs 0 spans) (values.map String.toList))) =
        (Template.ofText cs).fill value := by
  intro spans
  obtain ⟨parts, insides⟩ := spans_go_parts [] (Template.ofText cs).tail (Template.ofText cs).holes
  rw [List.nil_append, text_ofText] at parts insides
  have same : (spans.mapM fun (start, stop) => value (cs.extract (start + 2) (stop - 1))) =
      (Template.ofText cs).holes.mapM fun hole => value hole.2 := by
    have mapped := congrArg (List.mapM value) insides
    rwa [List.mapM_map, List.mapM_map] at mapped
  rw [same, Template.fill_eq, show between cs 0 spans = _ from parts]
  cases written : (Template.ofText cs).holes.mapM fun hole => value hole.2 with
  | error => rfl
  | ok texts =>
    exact congrArg (Except.ok ∘ String.ofList) (woven_holes (mapM_eq_ok.mp written) _)

theorem length_between (place : Nat) (spans : List (Nat × Nat)) :
    (between cs place spans).length = spans.length + 1 := by
  induction spans generalizing place with
  | nil => rfl
  | cons span spans ih => rw [between, List.length_cons, ih, List.length_cons]

theorem interpolate_eq_fill {text : String} (several : placeholders text ≠ [(0, text.toList.length)])
    (context : Data) : interpolate (.text text) context =
      ((Template.ofText text.toList).fill fun inner =>
        (evaluate (.text (String.ofList inner)) context).display).map .text := by
  have whole := text_ofText text.toList
  rw [placeholders] at several
  rw [interpolate, interpolateText]
  split
  · rename_i tail found
    rw [found] at whole ⊢
    have same : tail = text.toList := whole
    rw [Template.fill_eq, same]
    exact congrArg (Except.ok ∘ Value.text) String.ofList_toList.symm
  · rename_i inner found
    rw [found] at whole several
    have length : text.toList.length = inner.length + 3 := by
      rw [← whole]
      simp [Template.text, opening]
    refine absurd ?_ several
    rw [length]
    simp [Template.spans, Template.spans.go]
  · rfl

/-- Placeholders are located in every text, in order. Unless a text is one placeholder, it is put
together from the parts between them, which are all the characters outside of them, and their values;
it fails with the first value that cannot be written. -/
theorem placeholders_located (text : String) :
    let cs := text.toList
    let spans := placeholders text
    Located cs 0 spans ∧
    (spans.Pairwise fun a b => a.2 ≤ b.1) ∧ (∀ span ∈ spans, span.1 < span.2 ∧ span.2 ≤ cs.length) ∧
    (between cs 0 spans).length = spans.length + 1 ∧ (between cs 0 spans).flatten = outside cs spans ∧
    ∀ context, spans ≠ [(0, cs.length)] →
      let value := fun inner => (evaluate (.text (String.ofList inner)) context).display
      interpolate (.text text) context = do
        let values ← spans.mapM fun (start, stop) => value (cs.extract (start + 2) (stop - 1))
        return .text (String.ofList (woven (between cs 0 spans) (values.map String.toList))) := by
  intro cs spans
  have located : Located cs 0 spans := located_ofText [] cs
  have ordered := located.pairwise
  refine ⟨located, ordered, fun span listed => (located.bounds span listed).2,
    length_between 0 spans, ?_, fun context several => ?_⟩
  · rw [flatten_between located.bounds ordered, List.drop_zero, outside]
  · intro value
    rw [interpolate_eq_fill several, ← woven_between cs value]
    exact map_bind (m := Except Fault) Value.text _ _

/-- A brace in quotes, braces and quotes outside of placeholders, and an opening whose quote hides the
brace behind it. -/
theorem placeholders_located_stray :
    let text := "\x7d'$ $\x7b'\x7d' + x\x7d\"$\x7by\x7d\x7b$\x7b'\x7d"
    placeholders text = [(4, 14), (15, 19)] ∧ Located text.toList 0 [(4, 14), (15, 19)] ∧
    outside text.toList [(4, 14), (15, 19)] = "\x7d'$ \"\x7b$\x7b'\x7d".toList ∧
    ∀ context, interpolate (.text text) context = do
      let first ← (evaluate (.text "'\x7d' + x") context).display
      let second ← (evaluate (.text "y") context).display
      return .text (String.ofList ("\x7d'$ ".toList ++ first.toList ++
        ("\"".toList ++ second.toList ++ "\x7b$\x7b'\x7d".toList))) := by
  intro text
  have spans : placeholders text = [(4, 14), (15, 19)] := by decide +kernel
  have parts : between text.toList 0 [(4, 14), (15, 19)] =
      ["\x7d'$ ".toList, "\"".toList, "\x7b$\x7b'\x7d".toList] := by decide +kernel
  have first : String.ofList (text.toList.extract (4 + 2) (14 - 1)) = "'\x7d' + x" := by decide +kernel
  have second : String.ofList (text.toList.extract (15 + 2) (19 - 1)) = "y" := by decide +kernel
  obtain ⟨located, -, -, -, -, filled⟩ := placeholders_located text
  rw [spans] at located filled
  refine ⟨spans, located, by decide +kernel, fun context => ?_⟩
  rw [filled context (by decide +kernel), parts]
  simp only [List.mapM_cons, List.mapM_nil, first, second]
  cases (evaluate (.text "'\x7d' + x") context).display with
  | error => rfl
  | ok s =>
    cases (evaluate (.text "y") context).display with
    | error => rfl
    | ok t => rfl

end Filling

end Walkthrough.Expression
