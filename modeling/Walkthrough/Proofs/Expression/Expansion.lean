import Walkthrough.Expression.Template
import Walkthrough.Proofs.Expression.Lookup

/-! Placeholders in a text. The search for the brace that closes a placeholder looks at characters,
the lexer at tokens; both see the same braces and the same strings, unless a backslash stands in
front of a string. So a text put together from plain parts and placeholders is taken apart into
just these, and expanded one by one; where a value cannot be written, the expansion fails. -/
namespace Walkthrough.Expression

def opensBrace (k : Kind) : Bool := k == .leftBrace || k == .dollarBrace

def closesBrace (k : Kind) : Bool := k == .rightBrace

/-- No string begins right behind a backslash, the tokens standing behind a text. The quote that
begins a string is the only one that the lexer meets outside of a string. -/
def unescaped (before : List Char) : List Token → Bool
  | [] => true
  | t :: ts =>
    (t.kind != .string || (before ++ t.gap).getLast? != some '\\') &&
      unescaped (before ++ t.gap ++ t.lexeme) ts

/-- A text that may stand in a placeholder: it has tokens, nests its braces well, and puts no
backslash in front of a string. -/
structure Embeddable (cs : List Char) : Prop where
  readable : ∃ lexed, tokenize cs = .ok lexed ∧ WellNested opensBrace closesBrace lexed.tokens ∧
    unescaped [] lexed.tokens = true

theorem closesBrace_of_opensBrace (k : Kind) (opening : opensBrace k = true) :
    closesBrace k = false := by
  cases k <;> first | rfl | cases opening

instance (cs : List Char) : Decidable (Embeddable cs) :=
  match read : tokenize cs with
  | .ok lexed =>
    decidable_of_iff (height? opensBrace closesBrace 0 lexed.tokens = some 0 ∧
        unescaped [] lexed.tokens = true) (by
      rw [← wellNested_iff closesBrace_of_opensBrace]
      constructor
      · intro fits
        exact ⟨lexed, read, fits⟩
      · rintro ⟨lexed', read', fits⟩
        cases read.symm.trans read'
        exact fits)
  | .error e => .isFalse (by
      rintro ⟨lexed, read', -⟩
      cases read.symm.trans read')

/-- Puts characters in front of what a search has found. -/
def grown (cs : List Char) (found : Option (List Char × List Char)) :
    Option (List Char × List Char) :=
  found.map fun (inner, rest) => (cs ++ inner, rest)

@[simp] theorem grown_nil (found : Option (List Char × List Char)) : grown [] found = found := by
  simp [grown]

theorem grown_grown (cs ds : List Char) (found : Option (List Char × List Char)) :
    grown cs (grown ds found) = grown (cs ++ ds) found := by
  simp [grown, Function.comp_def]

section Search

variable {n m : Nat} {q before c : Char} {cs rest : List Char} {t : Token}

/-- Neither a quote nor a brace. -/
def isPlain (c : Char) : Bool := !isQuote c && c != '\x7b' && c != '\x7d'

theorem closeHole_cons (n : Nat) (quote : Option Char) (before c : Char) (cs : List Char) :
    closeHole n quote before (c :: cs) =
      if isQuote c && before != '\\' then
        grown [c] (closeHole n
          (if quote == some c then none else if quote.isNone then some c else quote) c cs)
      else if quote.isSome then grown [c] (closeHole n quote c cs)
      else if c == '\x7b' then grown [c] (closeHole (n + 1) quote c cs)
      else if c == '\x7d' then
        match n with
        | 0 => some ([], cs)
        | m + 1 => grown [c] (closeHole m quote c cs)
      else grown [c] (closeHole n quote c cs) := by
  simp only [closeHole]
  rfl

theorem closeHole_plain (plain : cs.all isPlain = true) :
    closeHole n none before (cs ++ rest) =
      grown cs (closeHole n none (cs.getLastD before) rest) := by
  induction cs generalizing before with
  | nil => simp
  | cons c cs ih =>
    simp only [List.all_cons, Bool.and_eq_true, isPlain, Bool.not_eq_true', bne_iff_ne] at plain
    obtain ⟨⟨⟨quote, opening⟩, closing⟩, later⟩ := plain
    rw [List.cons_append, closeHole_cons]
    simp only [quote, Bool.false_and, Bool.false_eq_true, ↓reduceIte, Option.isSome_none,
      beq_iff_eq, opening, closing]
    rw [ih later, grown_grown, List.getLastD_cons]
    rfl

/-- A search inside a string goes on to its end, which is where the lexer ends it. -/
theorem closeHole_quoted (quote : isQuote q = true)
    (closed : quotedLength? q before (cs ++ rest) = some cs.length) :
    closeHole n (some q) before (cs ++ rest) =
      grown cs (closeHole n none (cs.getLastD before) rest) := by
  induction cs generalizing before with
  | nil =>
    cases rest with
    | nil => cases closed
    | cons c rest =>
      simp only [List.nil_append, quotedLength?, List.length_nil] at closed
      split at closed
      · cases closed
      · obtain ⟨k, -, zero⟩ := Option.map_eq_some_iff.mp closed
        cases zero
  | cons c cs ih =>
    simp only [List.cons_append, quotedLength?, List.length_cons] at closed
    rw [List.cons_append, closeHole_cons]
    split at closed
    · rename_i ends
      simp only [Bool.and_eq_true, beq_iff_eq, bne_iff_ne] at ends
      obtain ⟨rfl, toggles⟩ := ends
      have last : cs = [] := by
        cases cs with
        | nil => rfl
        | cons d ds => simp at closed
      subst last
      simp [quote, toggles]
    · rename_i inside
      obtain ⟨k, later, same⟩ := Option.map_eq_some_iff.mp closed
      cases same
      rw [ih later, grown_grown, List.getLastD_cons]
      split
      · rename_i toggles
        have other : (some q == some c) = false := by
          simp only [Bool.and_eq_true, beq_iff_eq, bne_iff_ne] at inside toggles
          simp only [Option.some_beq_some, beq_eq_false_iff_ne]
          exact fun same => inside ⟨same.symm, toggles.2⟩
        rw [other]
        simp only [Bool.false_eq_true, ↓reduceIte, Option.isNone_some]
        rw [ih later, grown_grown]
        rfl
      · rfl

theorem isPlain_of_isBlank (blank : Text.isBlank c = true) : isPlain c = true := by
  have differs : ∀ d, Text.isBlank d = false → c ≠ d := by
    rintro d ink rfl
    rw [blank] at ink
    cases ink
  simp [isPlain, isQuote, differs '\'' (by decide), differs '"' (by decide),
    differs '\x7b' (by decide), differs '\x7d' (by decide)]

theorem isPlain_of_other (quote : isQuote c = false) (other : singleKind? c = none) :
    isPlain c = true := by
  have opening : c ≠ '\x7b' := by
    rintro rfl
    cases other
  have closing : c ≠ '\x7d' := by
    rintro rfl
    cases other
  simp [isPlain, quote, opening, closing]

theorem plain_of_wordLength (within : wordLength (cs ++ rest) = cs.length) :
    cs.all isPlain = true := by
  induction cs with
  | nil => rfl
  | cons c cs ih =>
    rw [List.cons_append, wordLength] at within
    split at within
    · cases within
    · rename_i goesOn
      simp only [endsWord, Bool.or_eq_true, not_or, Bool.not_eq_true, Option.isSome_eq_false_iff,
        Option.isNone_iff_eq_none] at goesOn
      rw [List.all_cons, isPlain_of_other goesOn.1.1.2 goesOn.1.2, Bool.true_and]
      exact ih (Nat.succ.inj within)

/-- What a token is to the search for a closing brace. -/
inductive Outline (t : Token) (rest : List Char) : Prop where
  | string (q : Char) (cs : List Char) (kind : t.kind = .string) (lexeme : t.lexeme = q :: cs)
      (quote : isQuote q = true) (closed : quotedLength? q q (cs ++ rest) = some cs.length)
  | opens (front : List Char) (opening : opensBrace t.kind = true)
      (lexeme : t.lexeme = front ++ ['\x7b']) (plain : front.all isPlain = true)
  | closes (opening : opensBrace t.kind = false) (closing : closesBrace t.kind = true)
      (lexeme : t.lexeme = ['\x7d'])
  | plain (opening : opensBrace t.kind = false) (closing : closesBrace t.kind = false)
      (plain : t.lexeme.all isPlain = true)

theorem Token.Heads.outline (heads : t.Heads rest) : Outline t rest := by
  obtain ⟨kind, gap, lexeme⟩ := t
  obtain ⟨-, c, cs, same, -, extent⟩ := heads
  cases same
  generalize length : cs.length = n at extent
  cases extent?_eq_some.mp extent with
  | string quote closed => exact .string c cs rfl rfl quote (length ▸ closed)
  | pair quote pair =>
    obtain ⟨d, rfl⟩ := List.length_eq_one_iff.mp length
    rw [List.singleton_append, List.head?_cons] at pair
    unfold pairKind? at pair
    split at pair <;> rename_i second <;> cases pair <;> cases second <;> first
      | exact .plain rfl rfl rfl
      | exact .opens ['$'] rfl rfl rfl
  | single quote alone single =>
    have none : cs = [] := List.eq_nil_of_length_eq_zero length
    subst none
    unfold singleKind? at single
    split at single <;> cases single <;> first
      | exact .plain rfl rfl rfl
      | exact .opens [] rfl rfl rfl
      | exact .closes rfl rfl rfl
  | word quote alone other =>
    have plain := plain_of_wordLength length.symm
    refine .plain rfl rfl ?_
    rw [List.all_cons, isPlain_of_other quote other, plain]
    rfl

end Search

section Tokens

variable {n m : Nat} {done rest : List Char} {t : Token} {ts : List Token}

theorem getLastD_getLastD (cs ds : List Char) (c : Char) :
    ds.getLastD (cs.getLastD c) = (cs ++ ds).getLastD c := by
  cases ds with
  | nil => simp
  | cons d ds => simp [List.getLastD_eq_getLast?, List.getLast?_append]

/-- The search passes over a token, one brace deeper or less deep if the token is one. -/
theorem closeHole_token (heads : t.Heads rest)
    (safe : t.kind = .string → (done ++ t.gap).getLast? ≠ some '\\')
    (within : height? opensBrace closesBrace n [t] = some m) :
    closeHole n none (done.getLastD '\x7b') (t.gap ++ t.lexeme ++ rest) =
      grown (t.gap ++ t.lexeme)
        (closeHole m none ((done ++ t.gap ++ t.lexeme).getLastD '\x7b') rest) := by
  have blank : t.gap.all isPlain = true := by
    rw [List.all_eq_true]
    intro c inside
    exact isPlain_of_isBlank (List.all_eq_true.mp heads.gap c inside)
  rw [List.append_assoc, closeHole_plain blank, getLastD_getLastD, ← grown_grown]
  congr 1
  cases heads.outline with
  | string q cs kind lexeme quote closed =>
    have same : m = n := by
      simpa [height?, kind, opensBrace, closesBrace] using within.symm
    have toggles : (isQuote q && (done ++ t.gap).getLastD '\x7b' != '\\') = true := by
      have apart := safe kind
      rw [quote, Bool.true_and, bne_iff_ne, List.getLastD_eq_getLast?]
      cases last : (done ++ t.gap).getLast? with
      | none => decide
      | some c => simpa [last] using apart
    rw [lexeme, same, List.cons_append, closeHole_cons, if_pos toggles]
    simp only [Option.isNone_none, ↓reduceIte]
    rw [if_neg (by simp), closeHole_quoted quote closed, grown_grown, ← getLastD_getLastD,
      List.getLastD_cons]
    rfl
  | opens front opening lexeme plain =>
    have deeper : m = n + 1 := by
      simpa [height?, opening] using within.symm
    rw [lexeme, deeper, List.append_assoc, closeHole_plain plain, List.singleton_append,
      closeHole_cons]
    simp [isQuote, grown_grown]
  | closes opening closing lexeme =>
    cases n with
    | zero => simp [height?, opening, closing] at within
    | succ n =>
      have same : m = n := by
        simpa [height?, opening, closing] using within.symm
      rw [lexeme, same, List.singleton_append, closeHole_cons]
      simp [isQuote]
  | plain opening closing plain =>
    have same : m = n := by
      simpa [height?, opening, closing] using within.symm
    rw [same, closeHole_plain plain, getLastD_getLastD]

theorem closeHole_tokens (legible : Legible ts rest) (safe : unescaped done ts = true)
    (within : height? opensBrace closesBrace n ts = some m) :
    closeHole n none (done.getLastD '\x7b') (textBehind ts ++ rest) =
      grown (textBehind ts)
        (closeHole m none ((done ++ textBehind ts).getLastD '\x7b') rest) := by
  -- no quote is open between two tokens, and the count of braces is the height there
  induction ts generalizing done n with
  | nil =>
    cases within
    simp
  | cons t ts ih =>
    rw [unescaped, Bool.and_eq_true] at safe
    rw [← List.singleton_append, height?_append] at within
    obtain ⟨k, first, later⟩ := Option.bind_eq_some_iff.mp within
    have escape : t.kind = .string → (done ++ t.gap).getLast? ≠ some '\\' := by
      intro kind
      simpa [kind] using safe.1
    rw [textBehind_cons, List.append_assoc, closeHole_token legible.1 escape first,
      ih legible.2 safe.2 later, grown_grown]
    simp only [List.append_assoc]

end Tokens

/-- A placeholder is closed by the brace behind its text, whatever follows. -/
theorem closeHole_of_embeddable {cs : List Char} (embeddable : Embeddable cs) (rest : List Char) :
    closeHole 0 none '\x7b' (cs ++ '\x7d' :: rest) = some (cs, rest) := by
  obtain ⟨⟨ts, tail⟩, read, nested, safe⟩ := embeddable.readable
  obtain ⟨rfl, legible, blank⟩ := tokenize_eq_ok_iff.mp read
  have within := (wellNested_iff closesBrace_of_opensBrace).mp nested
  have plain : tail.all isPlain = true := by
    rw [List.all_eq_true]
    intro c inside
    exact isPlain_of_isBlank (List.all_eq_true.mp blank c inside)
  have passed := closeHole_tokens (legible.before (d := '\x7d') rfl rest) safe within
  simp only [List.getLastD_nil, List.nil_append] at passed
  rw [List.append_assoc, passed, closeHole_plain plain, closeHole_cons]
  simp [isQuote, grown]

/-- A text without an opening has its first one where one is put behind it. -/
theorem cutAt?_opening {cs : List Char} (plain : Text.occursIn opening cs = false)
    (rest : List Char) : Text.cutAt? opening (cs ++ opening ++ rest) = some (cs, rest) := by
  induction cs with
  | nil => rfl
  | cons c cs ih =>
    simp only [Text.occursIn, Text.cutAt?] at plain ih
    split at plain
    · cases plain
    · rename_i here
      rw [Option.isSome_map] at plain
      -- the character behind `c` is in the text, or else the dollar sign of the opening
      have later : opening.isPrefixOf (c :: (cs ++ opening ++ rest)) = false := by
        cases cs with
        | nil => simp [opening, List.isPrefixOf]
        | cons d ds => simpa [opening, List.isPrefixOf] using here
      rw [List.cons_append, List.cons_append, Text.cutAt?, later, ih plain]
      rfl

namespace Template

/-- The text that a template stands for. -/
def text (t : Template) : List Char :=
  t.holes.flatMap (fun (before, inner) => before ++ opening ++ inner ++ ['\x7d']) ++ t.tail

/-- Plain parts hold no opening, and what stands in placeholders is embeddable. -/
structure Regular (t : Template) : Prop where
  plain : ∀ hole ∈ t.holes, Text.occursIn opening hole.1 = false
  tail : Text.occursIn opening t.tail = false
  inner : ∀ hole ∈ t.holes, Embeddable hole.2

section OfText

variable {cs before behind inner rest : List Char}

theorem ofText_of_uncut (uncut : Text.cutAt? opening cs = none) : ofText cs = ⟨[], cs⟩ := by
  rw [ofText]
  split
  · rfl
  · rename_i cut
    cases uncut.symm.trans cut

theorem ofText_of_unclosed (cut : Text.cutAt? opening cs = some (before, behind))
    (unclosed : closeHole 0 none '\x7b' behind = none) : ofText cs = ⟨[], cs⟩ := by
  rw [ofText]
  split
  · rfl
  · rename_i cut'
    cases cut.symm.trans cut'
    split
    · rfl
    · rename_i closed
      cases unclosed.symm.trans closed

theorem ofText_of_closed (cut : Text.cutAt? opening cs = some (before, behind))
    (closed : closeHole 0 none '\x7b' behind = some (inner, rest)) :
    ofText cs = ⟨(before, inner) :: (ofText rest).holes, (ofText rest).tail⟩ := by
  rw [ofText]
  split
  · rename_i uncut
    cases uncut.symm.trans cut
  · rename_i cut'
    cases cut.symm.trans cut'
    split
    · rename_i unclosed
      cases unclosed.symm.trans closed
    · rename_i closed'
      cases closed.symm.trans closed'
      rfl

end OfText

theorem ofText_text {t : Template} (regular : t.Regular) : ofText t.text = t := by
  obtain ⟨holes, tail⟩ := t
  obtain ⟨plain, last, inner⟩ := regular
  induction holes with
  | nil =>
    have none : Text.cutAt? opening tail = none := by simpa [Text.occursIn] using last
    exact ofText_of_uncut none
  | cons hole holes ih =>
    obtain ⟨before, e⟩ := hole
    have shape : text ⟨(before, e) :: holes, tail⟩ =
        before ++ opening ++ (e ++ '\x7d' :: text ⟨holes, tail⟩) := by
      simp [text]
    have cut := cutAt?_opening (plain (before, e) List.mem_cons_self)
      (e ++ '\x7d' :: text ⟨holes, tail⟩)
    have closed := closeHole_of_embeddable (inner (before, e) List.mem_cons_self)
      (text ⟨holes, tail⟩)
    have more := ih (fun h later => plain h (List.mem_cons_of_mem _ later)) last
      (fun h later => inner h (List.mem_cons_of_mem _ later))
    rw [shape, ofText_of_closed cut closed, more]

/-- A placeholder begins behind the text in front of it, and its brackets make it three longer. -/
theorem spans_getElem? (t : Template) (i : Nat) :
    t.spans[i]? = t.holes[i]?.map fun (before, inner) =>
      ((text ⟨t.holes.take i, before⟩).length,
        (text ⟨t.holes.take i, before⟩).length + inner.length + 3) := by
  have go : ∀ (holes : List (List Char × List Char)) (position i : Nat),
      (spans.go position holes)[i]? = holes[i]?.map fun (before, inner) =>
        (position + (text ⟨holes.take i, before⟩).length,
          position + (text ⟨holes.take i, before⟩).length + inner.length + 3) := by
    intro holes
    induction holes with
    | nil => intro position i; simp [spans.go]
    | cons hole holes ih =>
      intro position i
      obtain ⟨before, inner⟩ := hole
      cases i with
      | zero => simp [spans.go, text]
      | succ i =>
        simp only [spans.go, List.getElem?_cons_succ, ih, List.take_succ_cons]
        cases holes[i]? with
        | none => rfl
        | some next =>
          simp only [text, opening, Option.map_some, List.flatMap_cons, List.length_append,
            List.length_cons, List.length_nil, Option.some.injEq, Prod.mk.injEq]
          omega
  simpa only [spans, Nat.zero_add] using go t.holes 0 i

theorem length_spans (t : Template) : t.spans.length = t.holes.length := by
  have go : ∀ (holes : List (List Char × List Char)) (position : Nat),
      (spans.go position holes).length = holes.length := by
    intro holes
    induction holes with
    | nil => intro position; rfl
    | cons hole holes ih => intro position; simp [spans.go, ih]
  exact go t.holes 0

/-- One text for each placeholder, or the first failure among them. -/
theorem mapM_parts (f : List Char → Except Fault String) (holes : List (List Char × List Char)) :
    (holes.mapM fun (before, inner) => (f inner).map (String.ofList before ++ ·)) =
      (holes.mapM fun hole => f hole.2).map fun texts =>
        (holes.zip texts).map fun (hole, s) => String.ofList hole.1 ++ s := by
  induction holes with
  | nil => rfl
  | cons hole holes ih =>
    obtain ⟨before, inner⟩ := hole
    rw [List.mapM_cons, List.mapM_cons, ih]
    dsimp only
    cases f inner with
    | error => rfl
    | ok s => cases holes.mapM fun hole => f hole.2 <;> rfl

theorem fill_eq (t : Template) (f : List Char → Except Fault String) :
    t.fill f = (t.holes.mapM fun hole => f hole.2).map fun texts => String.ofList
      ((t.holes.zip texts).flatMap (fun (hole, s) => hole.1 ++ s.toList) ++ t.tail) := by
  have joined : ∀ parts : List String, "".intercalate parts =
      String.ofList (parts.flatMap String.toList) := by
    intro parts
    induction parts with
    | nil => rfl
    | cons first rest ih =>
      cases rest with
      | nil => simp
      | cons second rest =>
        rw [String.intercalate_cons_cons, ih]
        simp
  rw [fill, mapM_parts]
  cases t.holes.mapM fun hole => f hole.2 with
  | error => rfl
  | ok texts =>
    refine congrArg Except.ok ?_
    rw [joined, List.flatMap_map, ← String.ofList_append]
    simp

end Template

theorem display_of_failed {text : String} {context : Data} {e : ExpressionError}
    (failed : evaluateStrict text (if context.isVoid then .emptyMap else context) = .error e) :
    (evaluate (.text text) context).display = .ok "" := by
  rw [evaluate, evaluateText, failed]
  rfl

/-- A text that is more than one placeholder alone is put together from its plain parts and from what
is shown of its values. -/
theorem interpolate_several {t : Template} (regular : t.Regular) (holes : t.holes ≠ [])
    (several : ∀ inner, t ≠ ⟨[([], inner)], []⟩) (context : Data) :
    interpolate (.text (String.ofList t.text)) context =
      (t.holes.mapM fun hole => (evaluate (.text (String.ofList hole.2)) context).display).map
        fun texts => .text (String.ofList
          ((t.holes.zip texts).flatMap (fun (hole, s) => hole.1 ++ s.toList) ++ t.tail)) := by
  rw [interpolate, interpolateText, String.toList_ofList, Template.ofText_text regular]
  split
  · exact absurd rfl holes
  · exact absurd rfl (several _)
  · rw [Template.fill_eq]
    change Except.map Value.text (Except.map _ (t.holes.mapM fun hole =>
      (evaluate (.text (String.ofList hole.2)) context).display)) = _
    cases t.holes.mapM fun hole => (evaluate (.text (String.ofList hole.2)) context).display <;> rfl

/-- The placeholders of a regular text are just those put into it. Their values take their places
and are not looked at again, unless the text is one placeholder and so becomes its value; one that
has no value leaves nothing behind, but the first that cannot be written fails the whole. -/
theorem interpolate_text {t : Template} (regular : t.Regular) (holes : t.holes ≠ []) :
    let text := String.ofList t.text
    let value := fun context inner => evaluate (.text (String.ofList inner)) context
    ((placeholders text).length = t.holes.length ∧
      ∀ i before inner, t.holes[i]? = some (before, inner) →
        let start := (Template.text ⟨t.holes.take i, before⟩).length
        (placeholders text)[i]? = some (start, start + inner.length + 3)) ∧
    (∀ context,
      (∀ inner, t = ⟨[([], inner)], []⟩ →
        interpolate (.text text) context = .ok (value context inner)) ∧
      ((∀ inner, t ≠ ⟨[([], inner)], []⟩) → interpolate (.text text) context =
        (t.holes.mapM fun hole => (value context hole.2).display).map fun texts =>
          .text (String.ofList ((t.holes.zip texts).flatMap (fun (hole, s) => hole.1 ++ s.toList) ++
            t.tail))) ∧
      ∀ hole ∈ t.holes, ∀ e, evaluateStrict (String.ofList hole.2)
        (if context.isVoid then .emptyMap else context) = .error e →
          (value context hole.2).display = .ok "") := by
  intro text value
  have read : Template.ofText text.toList = t := by
    rw [String.toList_ofList]
    exact Template.ofText_text regular
  have spans : placeholders text = t.spans := by rw [placeholders, read]
  refine ⟨⟨?_, ?_⟩, fun context => ⟨?_, ?_, ?_⟩⟩
  · rw [spans, Template.length_spans]
  · intro i before inner here
    rw [spans, Template.spans_getElem?, here]
    rfl
  · intro inner same
    rw [interpolate, interpolateText, read, same]
    rfl
  · exact fun several => interpolate_several regular holes several context
  · intro hole _ e failed
    exact display_of_failed failed

/-- Braces inside of strings and of an object, a dollar sign in front of a placeholder, and a brace
behind one. -/
theorem interpolate_text_letter :
    let amount := "\x7b'\x7d': sum\x7d?size + \"'$\x7b\""
    let payee := "name.²"
    let t : Template := ⟨[("Pay $".toList, amount.toList), (" to ".toList, payee.toList)],
      "\x7b!\x7d".toList⟩
    let text := "Pay $$\x7b" ++ amount ++ "\x7d to $\x7b" ++ payee ++ "\x7d\x7b!\x7d"
    t.Regular ∧ t.holes ≠ [] ∧ placeholders text = [(5, 31), (35, 44)] ∧
      ∀ context, interpolate (.text text) context = do
        let first ← (evaluate (.text amount) context).display
        let second ← (evaluate (.text payee) context).display
        return .text (String.ofList ("Pay $".toList ++ first.toList ++ " to ".toList ++
          second.toList ++ "\x7b!\x7d".toList)) := by
  intro amount payee t text
  have regular : t.Regular := ⟨by decide, by decide, by decide +kernel⟩
  have holes : t.holes ≠ [] := List.cons_ne_nil _ _
  have several : ∀ inner, t ≠ ⟨[([], inner)], []⟩ := fun inner same =>
    absurd (congrArg (·.holes.length) same) (by simp [t])
  have shape : String.ofList t.text = text := by decide
  obtain ⟨-, expands⟩ := interpolate_text regular holes
  rw [shape] at expands
  refine ⟨regular, holes, by decide +kernel, fun context => ?_⟩
  rw [(expands context).2.1 several]
  simp only [t, List.mapM_cons, List.mapM_nil, String.ofList_toList]
  cases (evaluate (.text amount) context).display with
  | error => rfl
  | ok first =>
    cases (evaluate (.text payee) context).display with
    | error => rfl
    | ok second => simp [bind, Except.bind, Except.map, pure, Except.pure]

theorem evaluate_reply (n : Int) :
    evaluate (.text "replies.x") (.ofEntries [(.text "replies", .ofEntries [(.text "x", .int n)])]) =
      .int n := by
  have there : Entries.field? [(.text "replies", .ofEntries [(.text "x", .int n)])] "replies" =
      some (.ofEntries [(.text "x", .int n)]) := rfl
  have word : IsWord "x" := by decide +kernel
  have found := evaluate_dotted leading_replies word (by decide) there
  exact found

/-- A whole number with too many digits has no text, so it cannot stand in one. -/
theorem interpolate_of_vast :
    let n : Int := Nat.pow 10 digitLimit
    let context : Data := .ofEntries [(.text "replies", .ofEntries [(.text "x", .int n)])]
    let t : Template := ⟨[("a ".toList, "replies.x".toList)], []⟩
    t.Regular ∧ evaluate (.text "replies.x") context = .int n ∧
      interpolate (.text (String.ofList t.text)) context = .error .tooManyDigits := by
  intro n context t
  have regular : t.Regular := ⟨by decide, by decide, by decide +kernel⟩
  have several : ∀ inner, t ≠ ⟨[([], inner)], []⟩ := fun inner => by simp [t]
  have many : digitLimit < (Number.int n).digits := Number.lt_digits_pow (by decide)
  have unwritten : (evaluate (.text "replies.x") context).display = .error .tooManyDigits := by
    rw [evaluate_reply n]
    exact if_pos many
  refine ⟨regular, evaluate_reply n, ?_⟩
  rw [interpolate_several regular (List.cons_ne_nil _ _) several]
  simp only [t, List.mapM_cons, String.ofList_toList, unwritten]
  rfl

end Walkthrough.Expression
