import Walkthrough.Text.Blank

/-! Tokens of an expression. A token keeps the white space before it, so that the tokens and the
white space at the end make up the text again; positions are running sums. Whatever is neither
space, quote, bracket nor operator is part of a word. -/
namespace Walkthrough.Expression

inductive Kind where
  | word | string
  | leftParen | rightParen | leftBrace | rightBrace | leftBracket | rightBracket | dollarBrace
  | comma | colon | or | and | eq | ne | ge | le | gt | lt | plus | not
  | question | exist | arrow | other
  deriving DecidableEq, Repr

def Kind.name : Kind → String
  | word => "WORD" | string => "STRING"
  | leftParen => "LPAREN" | rightParen => "RPAREN"
  | leftBrace => "LBRACE" | rightBrace => "RBRACE"
  | leftBracket => "LBRACKET" | rightBracket => "RBRACKET" | dollarBrace => "DOLLAR_BRACE"
  | comma => "COMMA" | colon => "COLON" | or => "OR" | and => "AND"
  | eq => "EQ" | ne => "NE" | ge => "GE" | le => "LE" | gt => "GT" | lt => "LT"
  | plus => "PLUS" | not => "NOT"
  | question => "QUESTION" | exist => "EXISTS" | arrow => "ARROW" | other => "OTHER"

def Kind.isOpener : Kind → Bool
  | leftParen | leftBrace | leftBracket | dollarBrace => true
  | _ => false

def Kind.isCloser : Kind → Bool
  | rightParen | rightBrace | rightBracket => true
  | _ => false

/-- A token with the white space in front of it. -/
structure Token where
  kind : Kind
  gap : List Char
  lexeme : List Char
  deriving DecidableEq, Repr

/-- The text of a token without the quotes of a string. -/
def Token.value (t : Token) : List Char :=
  if t.kind == .string then t.lexeme.tail.dropLast else t.lexeme

/-- Operators of two characters come before their first character alone. -/
def pairKind? (c : Char) (next : Option Char) : Option Kind :=
  match c, next with
  | '|', some '|' => some .or
  | '&', some '&' => some .and
  | '=', some '=' => some .eq
  | '!', some '=' => some .ne
  | '>', some '=' => some .ge
  | '<', some '=' => some .le
  | '?', some '?' => some .exist
  | '-', some '>' => some .arrow
  | '$', some '{' => some .dollarBrace
  | _, _ => none

def singleKind? : Char → Option Kind
  | '(' => some .leftParen
  | ')' => some .rightParen
  | '{' => some .leftBrace
  | '}' => some .rightBrace
  | '[' => some .leftBracket
  | ']' => some .rightBracket
  | ',' => some .comma
  | ':' => some .colon
  | '>' => some .gt
  | '<' => some .lt
  | '+' => some .plus
  | '!' => some .not
  | '?' => some .question
  | '|' => some .other
  | '&' => some .other
  | '=' => some .other
  | _ => none

def isQuote (c : Char) : Bool := c == '\'' || c == '"'

/-- Words end before white space, quotes, one-character operators and the pairs of an arrow and an
opening placeholder. -/
def endsWord (c : Char) (next : Option Char) : Bool :=
  Text.isBlank c || isQuote c || (singleKind? c).isSome || (pairKind? c next).isSome

def wordLength : List Char → Nat
  | [] => 0
  | c :: cs => if endsWord c cs.head? then 0 else wordLength cs + 1

/-- Characters up to and with the closing quote, which no backslash precedes. -/
def quotedLength? (quote before : Char) : List Char → Option Nat
  | [] => none
  | c :: cs =>
    if c == quote && before != '\\' then some 1 else (quotedLength? quote c cs).map (· + 1)

/-- The kind of the token that begins with a character, and how many of the characters behind it
belong to it. Only a string without its closing quote has none. -/
def extent? (c : Char) (cs : List Char) : Option (Kind × Nat) :=
  if isQuote c then (quotedLength? c c cs).map (Kind.string, ·)
  else
    match pairKind? c cs.head?, singleKind? c with
    | some kind, _ => some (kind, 1)
    | none, some kind => some (kind, 0)
    | none, none => some (.word, wordLength cs)

/-- A text as tokens, with the white space behind the last. -/
structure Lexed where
  tokens : List Token
  tail : List Char
  deriving DecidableEq, Repr

/-- A string that begins at a position and never ends. -/
structure Unterminated where
  position : Nat
  deriving DecidableEq, Repr

theorem length_dropWhile_lt {p : Char → Bool} {c : Char} {cs more : List Char}
    (h : cs.dropWhile p = c :: more) : more.length < cs.length := by
  have := (cs.dropWhile_suffix p).length_le
  rw [h, List.length_cons] at this
  omega

/-- Reads the tokens of a text that begins at a position. -/
def lex (position : Nat) (cs : List Char) : Except Unterminated Lexed :=
  let gap := cs.takeWhile Text.isBlank
  match _h : cs.dropWhile Text.isBlank with
  | [] => .ok ⟨[], gap⟩
  | c :: more =>
    match extent? c more with
    | none => .error ⟨position + gap.length⟩
    | some (kind, n) => do
      let rest ← lex (position + gap.length + 1 + n) (more.drop n)
      return ⟨⟨kind, gap, c :: more.take n⟩ :: rest.tokens, rest.tail⟩
termination_by cs.length
decreasing_by
  have := length_dropWhile_lt _h
  simp only [List.length_drop]
  omega

def tokenize (cs : List Char) : Except Unterminated Lexed := lex 0 cs

/-- Kind, text, first and behind-last position of every token; the end of the text closes the
list. -/
def Lexed.placed (lexed : Lexed) : List (String × List Char × Nat × Nat) :=
  go 0 lexed.tokens
where
  go (position : Nat) : List Token → List (String × List Char × Nat × Nat)
    | [] => [("EOF", [], position + lexed.tail.length, position + lexed.tail.length)]
    | t :: ts =>
      let start := position + t.gap.length
      let stop := start + t.lexeme.length
      (t.kind.name, t.value, start, stop) :: go stop ts

/-- The text that tokens cover, from the first lexeme to the last. -/
def textBehind (ts : List Token) : List Char := ts.flatMap fun t => t.gap ++ t.lexeme

def raw : List Token → List Char
  | [] => []
  | t :: ts => t.lexeme ++ textBehind ts

def rawText (ts : List Token) : String := String.ofList (raw ts)

end Walkthrough.Expression
