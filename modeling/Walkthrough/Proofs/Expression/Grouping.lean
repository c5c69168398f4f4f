import Walkthrough.Expression.Evaluator
import Walkthrough.Proofs.Expression.Levels
import Walkthrough.Proofs.Expression.Lexing

/-! Groups around a text. A text whose brackets are well nested has the same tokens between brackets
as it has alone, and the parser reads a group as its inside at every level; so parentheses and
placeholders around a whole expression change nothing. -/
namespace Walkthrough.Expression

/-- A text that is not blank, has tokens, and nests its brackets well, whatever their kinds. -/
structure Admissible (text : String) : Prop where
  solid : Text.allBlank text.toList = false
  readable : ∃ lexed, tokenize text.toList = .ok lexed ∧
    WellNested Kind.isOpener Kind.isCloser lexed.tokens

/-- The tokens of an admissible text, and the white space behind them. -/
structure Spells (cs : List Char) (ts : List Token) (tail : List Char) : Prop where
  covers : cs = textBehind ts ++ tail
  legible : Legible ts tail
  blank : Text.allBlank tail = true
  nested : Nested ts
  solid : ts ≠ []

theorem admissible_iff {text : String} :
    Admissible text ↔ Text.allBlank text.toList = false ∧
      ∃ lexed, tokenize text.toList = .ok lexed ∧ Nested lexed.tokens := by
  have nests (ts : List Token) : WellNested Kind.isOpener Kind.isCloser ts ↔ Nested ts :=
    wellNested_iff Kind.isCloser_of_isOpener
  constructor
  · rintro ⟨solid, lexed, read, nested⟩
    exact ⟨solid, lexed, read, (nests _).mp nested⟩
  · rintro ⟨solid, lexed, read, nested⟩
    exact ⟨solid, lexed, read, (nests _).mpr nested⟩

instance (text : String) : Decidable (Admissible text) :=
  match read : tokenize text.toList with
  | .ok lexed =>
    decidable_of_iff (Text.allBlank text.toList = false ∧
        height? Kind.isOpener Kind.isCloser 0 lexed.tokens = some 0) (by
      rw [admissible_iff, read]
      simp [Nested])
  | .error e => .isFalse (by
      rw [admissible_iff, read]
      simp)

theorem spells_of_read {cs : List Char} {ts : List Token} {tail : List Char}
    (read : tokenize cs = .ok ⟨ts, tail⟩) (nested : Nested ts) (solid : ts ≠ []) :
    Spells cs ts tail := by
  obtain ⟨covers, legible, blank⟩ := tokenize_eq_ok_iff.mp read
  exact ⟨covers, legible, blank, nested, solid⟩

theorem Admissible.spells {text : String} (admissible : Admissible text) :
    ∃ ts tail, Spells text.toList ts tail := by
  obtain ⟨solid, ⟨ts, tail⟩, read, nested⟩ := admissible_iff.mp admissible
  obtain ⟨covers, -, blank⟩ := tokenize_eq_ok_iff.mp read
  refine ⟨ts, tail, spells_of_read read nested ?_⟩
  rintro rfl
  rw [covers, textBehind_nil, List.nil_append, blank] at solid
  cases solid

theorem Kind.sign_of_isCloser {k : Kind} (closing : k.isCloser = true) :
    ∃ d, k.sign = [d] ∧ seals d = true ∧ k.opensPair = false := by
  cases k <;> first | exact ⟨_, rfl, rfl, rfl⟩ | cases closing

theorem Kind.sign_of_isOpener {k : Kind} (opening : k.isOpener = true) :
    k.sign ≠ [] ∧ k.opensPair = false := by
  cases k <;> first | exact ⟨List.cons_ne_nil _ _, rfl⟩ | cases opening

/-- Between brackets a text keeps its tokens: what comes behind the white space at its end is a
closer, which no token runs into. -/
theorem Legible.between {gap tail : List Char} {opener closer : Kind} {ts : List Token}
    (legible : Legible ts tail) (opening : opener.isOpener = true) (closing : closer.isCloser = true)
    (before : Text.allBlank gap = true) (after : Text.allBlank tail = true) (rest : List Char) :
    Legible (sign opener gap :: ts ++ [sign closer tail]) rest := by
  obtain ⟨d, text, sealing, single⟩ := Kind.sign_of_isCloser closing
  have closed : Legible ts (textBehind [sign closer tail] ++ rest) := by
    have behind : textBehind [sign closer tail] ++ rest = tail ++ d :: rest := by simp [text]
    rw [behind]
    exact legible.before sealing rest
  have last : Legible [sign closer tail] rest :=
    ⟨heads_closed _ after (by simp [text]) single, trivial⟩
  obtain ⟨spelled, alone⟩ := Kind.sign_of_isOpener opening
  exact ⟨heads_closed _ before spelled alone, closed.append last⟩

namespace Spells

variable {text : String} {cs : List Char} {ts : List Token} {tail : List Char}

theorem solid_text (spells : Spells cs ts tail) : Text.allBlank cs = false := by
  obtain ⟨covers, legible, -, -, solid⟩ := spells
  cases ts with
  | nil => exact absurd rfl solid
  | cons t ts =>
    obtain ⟨c, more, lexeme, ink, -⟩ := legible.1.lexeme
    rw [covers, textBehind_cons, lexeme, Text.allBlank]
    simp [ink]

theorem parse_eq (spells : Spells text.toList ts tail) : parse text = (disjunction ts).checked := by
  have read := tokenize_eq_ok_iff.mpr ⟨spells.covers, spells.legible, spells.blank⟩
  rw [parse, read]
  exact congrArg Expr.checked (whole_eq spells.solid)

theorem legible_enclose {gap : List Char} {opener closer : Kind} (spells : Spells cs ts tail)
    (opening : opener.isOpener = true) (closing : closer.isCloser = true)
    (blank : Text.allBlank gap = true) (rest : List Char) :
    Legible (sign opener gap :: ts ++ [sign closer tail]) rest :=
  spells.legible.between opening closing blank spells.blank rest

theorem enclose {opener closer : Kind} (spells : Spells cs ts tail)
    (opening : opener.isOpener = true) (closing : closer.isCloser = true) :
    Spells (opener.sign ++ cs ++ closer.sign) (sign opener [] :: ts ++ [sign closer tail]) [] where
  covers := by
    rw [List.cons_append, textBehind_cons, textBehind_append, spells.covers]
    simp
  legible := spells.legible_enclose opening closing rfl []
  blank := rfl
  nested := spells.nested.enclose opening closing
  solid := List.cons_ne_nil _ _

end Spells

/-- Brackets that may stand around a whole expression. -/
inductive Wrapper where
  | parens
  | placeholder
  deriving DecidableEq, Repr

namespace Wrapper

def around : Wrapper → String → String
  | parens, e => "(" ++ e ++ ")"
  | placeholder, e => "$\x7b" ++ e ++ "\x7d"

def opener : Wrapper → Kind
  | parens => .leftParen
  | placeholder => .dollarBrace

def closer : Wrapper → Kind
  | parens => .rightParen
  | placeholder => .rightBrace

/-- Tokens between the brackets, the white space behind them in front of the closing one. -/
def tokens (w : Wrapper) (gap : List Char) (ts : List Token) (tail : List Char) : List Token :=
  sign w.opener gap :: ts ++ [sign w.closer tail]

variable {w : Wrapper} {cs gap tail : List Char} {ts : List Token}

theorem toList_around (w : Wrapper) (e : String) :
    (w.around e).toList = w.opener.sign ++ e.toList ++ w.closer.sign := by
  cases w <;> simp [around, opener, closer, Kind.sign]

theorem textBehind_tokens (spells : Spells cs ts tail) :
    textBehind (w.tokens gap ts tail) = gap ++ (w.opener.sign ++ cs ++ w.closer.sign) := by
  rw [tokens, List.cons_append, textBehind_cons, textBehind_append, spells.covers]
  simp

theorem isGroupOpener_opener (w : Wrapper) : isGroupOpener w.opener = true := by
  cases w <;> rfl

theorem isCloser_closer (w : Wrapper) : w.closer.isCloser = true := by
  cases w <;> rfl

theorem holds_tokens (spells : Spells cs ts tail) : Holds 8 (w.tokens gap ts tail) :=
  holds_enclose (isOpener_of_isGroupOpener w.isGroupOpener_opener) w.isCloser_closer spells.nested

theorem readAt_tokens (spells : Spells cs ts tail) (n : Nat) :
    readAt n (w.tokens gap ts tail) = disjunction ts :=
  readAt_group w.isGroupOpener_opener w.isCloser_closer spells.nested n

theorem legible_tokens (spells : Spells cs ts tail) (blank : Text.allBlank gap = true)
    (rest : List Char) : Legible (w.tokens gap ts tail) rest :=
  spells.legible_enclose (isOpener_of_isGroupOpener w.isGroupOpener_opener) w.isCloser_closer blank
    rest

end Wrapper

theorem Spells.around {e : String} {ts : List Token} {tail : List Char}
    (spells : Spells e.toList ts tail) (w : Wrapper) :
    Spells (w.around e).toList (w.tokens [] ts tail) [] := by
  rw [w.toList_around]
  exact spells.enclose (isOpener_of_isGroupOpener w.isGroupOpener_opener) w.isCloser_closer

/-- Why a text has no value, whatever the text: a fault, or a string without end. -/
def ExpressionError.cause : ExpressionError → Option Fault
  | .unterminated _ => none
  | .failed _ fault => some fault

def ParseError.cause : ParseError → Option Fault
  | .unterminated _ => none
  | .fault f => some f

/-- The value of a text or why it has none. -/
def outcome (text : String) (context : Data) : Except (Option Fault) Data :=
  (evaluateStrict text context).mapError ExpressionError.cause

/-- The value that a tree gives to its text: none if a numeral in it could not be read. -/
def Expr.outcome (e : Expr) (context : Data) : Except Fault Data :=
  if e.readable then e.value context else .error .tooManyDigits

theorem Expr.outcome_of_readable {e : Expr} (readable : e.readable = true) (context : Data) :
    e.outcome context = e.value context :=
  if_pos readable

theorem Expr.outcome_eq_ok {e : Expr} {context v : Data} :
    e.outcome context = .ok v ↔ e.readable = true ∧ e.value context = .ok v := by
  rw [Expr.outcome]
  cases e.readable <;> simp

theorem evaluateStrict_of_parse {text : String} {e : Expr}
    (solid : Text.allBlank text.toList = false) (parsed : parse text = e.checked) (context : Data) :
    evaluateStrict text context = (e.outcome context).mapError (.failed text) := by
  rw [evaluateStrict, solid, parsed, Expr.outcome]
  cases readable : e.readable with
  | true =>
    rw [Expr.checked_of_readable readable]
    rfl
  | false =>
    rw [Expr.checked_of_unreadable readable]
    rfl

theorem outcome_of_parse {text : String} {e : Expr} (solid : Text.allBlank text.toList = false)
    (parsed : parse text = e.checked) (context : Data) :
    outcome text context = (e.outcome context).mapError some := by
  rw [outcome, evaluateStrict_of_parse solid parsed]
  cases e.outcome context <;> rfl

theorem evaluateText_eq (text : String) (context : Data) :
    evaluateText text context =
      match outcome text (if context.isVoid then .emptyMap else context) with
      | .ok v => v
      | .error _ => .null := by
  rw [evaluateText, outcome]
  cases evaluateStrict text (if context.isVoid then .emptyMap else context) <;> rfl

theorem evaluateText_ofEntries (text : String) (es : Entries Unit) :
    evaluateText text (.ofEntries es) =
      match evaluateStrict text (.ofEntries es) with
      | .ok v => v
      | .error _ => .null := by
  cases es <;> rfl

/-- Brackets around a text, the first of the list outermost. -/
def wrapAll (ws : List Wrapper) (e : String) : String := ws.foldr Wrapper.around e

theorem Spells.wrapAll {e : String} {ts : List Token} {tail : List Char}
    (spells : Spells e.toList ts tail) (ws : List Wrapper) :
    ∃ us rest, Spells (wrapAll ws e).toList us rest ∧ disjunction us = disjunction ts := by
  induction ws with
  | nil => exact ⟨ts, tail, spells, rfl⟩
  | cons w ws ih =>
    obtain ⟨us, rest, inner, same⟩ := ih
    refine ⟨w.tokens [] us rest, [], inner.around w, ?_⟩
    rw [← same]
    exact Wrapper.readAt_tokens inner 0

/-- However often a text is put between parentheses or made a placeholder, its tree stays the same,
and so do the check that all numerals in it have been read, and its value. -/
theorem parse_wrapAll {e : String} (admissible : Admissible e) (ws : List Wrapper) :
    (∃ tree : Expr, parse e = tree.checked ∧ parse (wrapAll ws e) = tree.checked) ∧
      ∀ context, outcome (wrapAll ws e) context = outcome e context ∧
        evaluate (.text (wrapAll ws e)) context = evaluate (.text e) context := by
  obtain ⟨ts, tail, spells⟩ := admissible.spells
  obtain ⟨us, rest, wrapped, same⟩ := spells.wrapAll ws
  have parsed : parse (wrapAll ws e) = (disjunction ts).checked := same ▸ wrapped.parse_eq
  have outcomes : ∀ context, outcome (wrapAll ws e) context = outcome e context := by
    intro context
    rw [outcome_of_parse wrapped.solid_text parsed, outcome_of_parse spells.solid_text spells.parse_eq]
  refine ⟨⟨_, spells.parse_eq, parsed⟩, fun context => ⟨outcomes context, ?_⟩⟩
  simp only [evaluate, evaluateText_eq, outcomes]

theorem parse_wrapAll_mixed :
    let e := "x?join(' ) ') + [ a\x7d && \"$\x7b\" == y?then(p, 'q')  "
    let wrapped := "($\x7b(" ++ e ++ ")\x7d)"
    (∃ tree : Expr, parse e = tree.checked ∧ parse wrapped = tree.checked) ∧
      ∀ context, outcome wrapped context = outcome e context ∧
        evaluate (.text wrapped) context = evaluate (.text e) context := by
  intro e wrapped
  have admissible : Admissible e := by decide +kernel
  have same : wrapAll [.parens, .placeholder, .parens] e = wrapped := by decide
  exact same ▸ parse_wrapAll admissible [.parens, .placeholder, .parens]

end Walkthrough.Expression
