import Walkthrough.Expression.Division
import Walkthrough.Expression.Tree

/-! Syntax trees from tokens. Each level looks for its own operators among the exposed tokens, and
hands the parts to the next tighter level; so the level that sees an operator first decides how the
text is read. Every list of tokens has a tree: what fits no rule is a path. A text has none if it does
not divide into tokens, or if its tree is not readable. -/
namespace Walkthrough.Expression

/-- The inside of a text that begins and ends with one quote. -/
def unquoted? (cs : List Char) : Option (List Char) :=
  match cs with
  | [] | [_] => none
  | c :: rest => if isQuote c && rest.getLast? == some c then some rest.dropLast else none

/-- A text at the bottom level: a quoted text, a number, a keyword, or else a path. -/
def leaf (cs : List Char) : Expr :=
  match unquoted? cs with
  | some inner => .literal (.text (String.ofList inner))
  | none =>
    match Numeral.parse? cs with
    | .error _ => .unread (String.ofList cs)
    | .ok (some n) => .literal (.number n)
    | .ok none =>
      if cs = "true".toList then .literal (.bool true)
      else if cs = "false".toList then .literal (.bool false)
      else if cs = "null".toList then .literal .null
      else .path (String.ofList cs)

/-- The argument text of a stage, from behind its parenthesis to its last token. -/
def argument : List Token → List Char
  | [] => []
  | [last] => last.gap
  | t :: ts => t.gap ++ t.lexeme ++ argument ts

/-- A separator is given in quotes; without them it is a comma. -/
def separator (cs : List Char) : String := String.ofList ((unquoted? cs).getD [','])

/-- The text is a call of a name: the name, an opening parenthesis, and a closing one at the end. -/
def isCall (name : String) (cs : List Char) : Bool :=
  (name.toList ++ ['(']).isPrefixOf cs && cs.getLast? == some ')'

/-- A stage as its tokens show it, the body of a mapping still to be read. -/
inductive StageForm (n : Nat) where
  | ready (stage : Stage)
  | mapping (item : String) (body : Shorter n)

/-- The body of a mapping lies between its first arrow and the next, if there is one. -/
def mappingForm? (ts : List Token) : Option (String × Shorter ts.length) :=
  match h : split .arrow 0 (ts.drop 2).dropLast with
  | (item, body :: _) =>
    some (rawText item, ⟨body, by
      have total := split_length .arrow 0 (ts.drop 2).dropLast
      rw [h] at total
      simp only [List.map_cons, addedUp_cons, List.length_dropLast, List.length_drop] at total
      omega⟩)
  | (_, []) => none

def stageForm (ts : List Token) : StageForm ts.length :=
  let cs := raw ts
  if cs = "string".toList then .ready .string
  else if cs = "size".toList then .ready .size
  else if cs = "has_content".toList then .ready .hasContent
  else if isCall "join" cs then .ready (.join (separator (argument (ts.drop 2))))
  else if isCall "split" cs then .ready (.split (separator (argument (ts.drop 2))))
  else if isCall "map" cs then
    match mappingForm? ts with
    | some (item, body) => .mapping item body
    | none => .ready (.unknown (String.ofList cs))
  else .ready (.unknown (String.ofList cs))

/-- The name of a property, without the quotes around it. -/
def propertyName (ts : List Token) : String :=
  String.ofList ((unquoted? (raw ts)).getD (raw ts))

/-- Name and value of a property at its first colon; without one there is no property. -/
def property? {n : Nat} (p : Shorter n) : Option (String × Shorter n) :=
  (cut? .colon p.val).map fun (name, value) =>
    (propertyName name, value.widen (Nat.le_of_lt p.property))

def properties (ts : List Token) : List (String × Shorter (ts.length + 1)) :=
  (parts .comma ts).filterMap property?

def isGroupOpener (kind : Kind) : Bool := kind == .leftParen || kind == .dollarBrace

/-- What stands behind a negation in front. -/
def negated? : (ts : List Token) → Option (Shorter ts.length)
  | [] => none
  | t :: rest => if t.kind == .not then some ⟨rest, Nat.lt_succ_self _⟩ else none

def relationOf? (ts : List Token) : Option (Relation × Shorter ts.length × Shorter ts.length) :=
  [(Kind.ge, Relation.atLeast), (.le, .atMost), (.gt, .greater), (.lt, .less)].findSome?
    fun (kind, relation) =>
      match divide? kind ts with
      | some (left, right :: _) => some (relation, left, right)
      | _ => none

def equalityOf? (ts : List Token) : Option (Comparison × Shorter ts.length × Shorter ts.length) :=
  [(Kind.eq, Comparison.equal), (.ne, .unequal)].findSome? fun (kind, comparison) =>
    match divide? kind ts with
    | some (left, right :: _) => some (comparison, left, right)
    | _ => none

mutual

/-- A whole expression; nothing at all is null. -/
def whole (ts : List Token) : Expr :=
  if ts.isEmpty then .literal .null
  else
    match inside? (· == .dollarBrace) ts with
    | some inside => disjunction inside.val
    | none => disjunction ts
termination_by (ts.length, 6)
decreasing_by
  · exact Prod.Lex.left _ _ inside.property
  · exact Prod.Lex.right _ (by decide)

def disjunction (ts : List Token) : Expr :=
  match divide? .or ts with
  | some (first, rest) => .either (conjunction first.val) (rest.map fun p => conjunction p.val)
  | none => conjunction ts
termination_by (ts.length, 5)
decreasing_by
  · exact Prod.Lex.left _ _ first.property
  · exact Prod.Lex.left _ _ p.property
  · exact Prod.Lex.right _ (by decide)

def conjunction (ts : List Token) : Expr :=
  match divide? .and ts with
  | some (first, rest) => .both (conditional first.val) (rest.map fun p => conditional p.val)
  | none => conditional ts
termination_by (ts.length, 4)
decreasing_by
  · exact Prod.Lex.left _ _ first.property
  · exact Prod.Lex.left _ _ p.property
  · exact Prod.Lex.right _ (by decide)

def conditional (ts : List Token) : Expr :=
  match conditional? ts with
  | some (condition, yes, no) =>
    .choose (disjunction condition.val) (conditional yes.val) (conditional no.val)
  | none => equality ts
termination_by (ts.length, 3)
decreasing_by
  · exact Prod.Lex.left _ _ condition.property
  · exact Prod.Lex.left _ _ yes.property
  · exact Prod.Lex.left _ _ no.property
  · exact Prod.Lex.right _ (by decide)

def equality (ts : List Token) : Expr :=
  match equalityOf? ts with
  | some (comparison, left, right) =>
    .compare comparison (relational left.val) (relational right.val)
  | none => relational ts
termination_by (ts.length, 2)
decreasing_by
  · exact Prod.Lex.left _ _ left.property
  · exact Prod.Lex.left _ _ right.property
  · exact Prod.Lex.right _ (by decide)

def relational (ts : List Token) : Expr :=
  match relationOf? ts with
  | some (relation, left, right) =>
    .compare (.relation relation) (operand left.val) (operand right.val)
  | none => operand ts
termination_by (ts.length, 1)
decreasing_by
  · exact Prod.Lex.left _ _ left.property
  · exact Prod.Lex.left _ _ right.property
  · exact Prod.Lex.right _ (by decide)

/-- Groups, object literals, concatenation, negation, existence, chains and leaves. -/
def operand (ts : List Token) : Expr :=
  if ts.isEmpty then .path ""
  else
    match inside? isGroupOpener ts with
    | some inside => disjunction inside.val
    | none =>
      match inside? (· == .leftBrace) ts with
      | some inside =>
        .object ((properties inside.val).map fun p => (p.1, whole p.2.val))
      | none =>
        match divide? .plus ts with
        | some (first, rest) => .concat (operand first.val :: rest.map fun p => operand p.val)
        | none =>
          match negated? ts with
          | some rest => .not (operand rest.val)
          | none =>
            if ts.getLast?.any (·.kind == .exist) then .exist (rawText ts.dropLast)
            else
              match stages? ts with
              | some (base, stages) =>
                .chain (whole base.val) (stages.map fun p =>
                  match stageForm p.val with
                  | .ready stage => stage
                  | .mapping item body => .map item (whole body.val))
              | none => leaf (raw ts)
termination_by (ts.length, 0)
decreasing_by
  · exact Prod.Lex.left _ _ inside.property
  · exact Prod.Lex.left _ _ (Nat.lt_of_lt_of_le p.2.property inside.property)
  · exact Prod.Lex.left _ _ first.property
  · exact Prod.Lex.left _ _ p.property
  · exact Prod.Lex.left _ _ rest.property
  · exact Prod.Lex.left _ _ base.property
  · exact Prod.Lex.left _ _ (Nat.lt_trans body.property p.property)

end

/-- Why a text has no tree. -/
inductive ParseError where
  | unterminated (e : Unterminated)
  | fault (f : Fault)
  deriving DecidableEq, Repr

/-- A tree all of whose numerals have been read. -/
def Expr.checked (e : Expr) : Except ParseError Expr :=
  if e.readable then .ok e else .error (.fault .tooManyDigits)

theorem Expr.checked_of_readable {e : Expr} (readable : e.readable = true) : e.checked = .ok e :=
  if_pos readable

theorem Expr.checked_of_unreadable {e : Expr} (unreadable : e.readable = false) :
    e.checked = .error (.fault .tooManyDigits) :=
  if_neg (by simp [unreadable])

theorem Expr.checked_eq_ok {e tree : Expr} :
    e.checked = .ok tree ↔ e.readable = true ∧ e = tree := by
  unfold checked
  split <;> simp [*]

/-- The tree of a text. -/
def parse (text : String) : Except ParseError Expr := do
  let lexed ← (tokenize text.toList).mapError .unterminated
  (whole lexed.tokens).checked

end Walkthrough.Expression
