import Walkthrough.Proofs.Expression.Lookup
import Walkthrough.Proofs.Expression.Grouping
import Walkthrough.Proofs.Expression.Visiting

/-! What the parser takes for a group. It counts brackets without their kinds, so it goes by kinds
only in a text whose brackets match: there every list of tokens that it comes to matches, and is
divided where no bracket of any kind is open. In other texts any closer closes any opener. -/
namespace Walkthrough.Expression

/-- Brackets count by kind: a group and a call are closed by the closer of their own opener, and
what is exposed stands where no bracket of any kind is open. -/
structure ByKind (ts : List Token) : Prop where
  groups : ∀ (opens : Kind → Bool) (inside : List Token),
    (∀ k, opens k = true → k.isOpener = true) → group? opens ts = some inside →
    ∃ opener closer, ts = opener :: inside ++ [closer] ∧ opens opener.kind = true ∧
      opener.kind.closer? = some closer.kind
  calls : ∀ before behind inside, lastThen 0 ts = some (before, behind) →
    enclosed 0 behind = some (inside, []) →
    ∃ closer, behind = inside ++ [closer] ∧ closer.kind = .rightParen
  delimiters : ∀ front t back, ts = front ++ t :: back → t.kind.isNeutral = true →
    exposed (depthAcross 0 front) t = true → ∀ closer, closer.isCloser = true →
    depthOf closer front = 0

/-- The parenthesis of a mapping closes at its end. -/
def MappingClosed (ts : List Token) : Prop :=
  isCall "map" (raw ts) = true → (group? (· == .leftParen) ts.tail).isSome = true

instance (ts : List Token) : Decidable (MappingClosed ts) := inferInstanceAs (Decidable (_ → _))

section Matched

variable {ts us vs inside before behind : List Token} {here there : Level}

theorem Matched.group (whole : Matched ts) {opens : Kind → Bool}
    (brackets : ∀ k, opens k = true → k.isOpener = true) (found : group? opens ts = some inside) :
    ∃ opener closer, ts = opener :: inside ++ [closer] ∧ opens opener.kind = true ∧
      opener.kind.closer? = some closer.kind ∧ Matched inside := by
  obtain ⟨opener, closer, rfl, opening, -, nested⟩ := of_group? found
  obtain ⟨own, inner⟩ := whole.of_enclose (brackets _ opening) nested
  exact ⟨opener, closer, rfl, opening, own, inner⟩

theorem Matched.of_group (whole : Matched ts) {opens : Kind → Bool}
    (brackets : ∀ k, opens k = true → k.isOpener = true) (found : group? opens ts = some inside) :
    Matched inside := by
  obtain ⟨-, -, -, -, -, inner⟩ := whole.group brackets found
  exact inner

theorem Matched.call (whole : Matched ts) (marked : lastThen 0 ts = some (before, behind))
    (closed : enclosed 0 behind = some (inside, [])) : Matched before ∧ Matched inside ∧
      ∃ closer, behind = inside ++ [closer] ∧ closer.kind = .rightParen := by
  obtain ⟨mark, word, paren, rfl, question, name, opening, shown⟩ := of_lastThen marked
  obtain ⟨closer, rfl, -, nested⟩ := of_enclosed closed
  obtain ⟨front, back⟩ := whole.around (by rw [question]; rfl) shown
  have call : Matched (paren :: inside ++ [closer]) := back.of_cons (by rw [name]; rfl)
  obtain ⟨own, inner⟩ := call.of_enclose (by rw [opening]; rfl) nested
  rw [opening] at own
  exact ⟨front, inner, closer, rfl, (Option.some.inj own).symm⟩

theorem Matched.byKind (whole : Matched ts) : ByKind ts where
  groups opens inside brackets found := by
    obtain ⟨opener, closer, shape, opening, own, -⟩ := whole.group brackets found
    exact ⟨opener, closer, shape, opening, own⟩
  calls before behind inside marked closed := (whole.call marked closed).2.2
  delimiters := by
    rintro front t back rfl neutral shown closer closing
    have front : Matched front := (whole.around neutral shown).1
    simpa using depthOf_of_awaited closing front

theorem Matched.forall_pieces (whole : Matched ts) {kind : Kind} (neutral : kind.isNeutral = true) :
    ∀ p ∈ pieces kind ts, Matched p :=
  List.forall_mem_cons.mpr (split_awaited neutral whole)

theorem Hands.matched (hands : Hands here us there vs) (whole : Matched us)
    (closed : here = .stage → MappingClosed us) : Matched vs := by
  cases hands with
  | bare | unconditional | uncompared | unrelated => exact whole
  | placeholder found | object found => exact whole.of_group (isOpener_of_beq rfl) found
  | group found => exact whole.of_group (fun _ => isOpener_of_isGroupOpener) found
  | alternative part | conjunct part | property part | summand _ _ part =>
    exact whole.forall_pieces rfl _ part
  | call marked given ends => exact (whole.call marked ends).2.1
  | condition marked given ends two => exact (whole.call marked ends).1
  | branch two side => exact whole.forall_pieces rfl _ (mem_pieces_of_parts two side)
  | compared found side =>
    obtain ⟨k, listed, piece⟩ := mem_pieces_of_findSome? found side
    have neutral : ∀ k ∈ [(Kind.eq, Comparison.equal), (.ne, .unequal)], k.1.isNeutral = true := by
      decide
    exact whole.forall_pieces (neutral k listed) _ piece
  | related found side =>
    obtain ⟨k, listed, piece⟩ := mem_pieces_of_findSome? found side
    have neutral : ∀ k ∈ [(Kind.ge, Relation.atLeast), (.le, .atMost), (.gt, .greater), (.lt, .less)],
        k.1.isNeutral = true := by decide
    exact whole.forall_pieces (neutral k listed) _ piece
  | value found =>
    obtain ⟨t, rfl, colon, shown⟩ := of_cut found
    exact (whole.around (by rw [colon]; rfl) shown).2
  | negated ungrouped single negation => exact whole.of_cons (by rw [negation]; rfl)
  | base => exact (segments_awaited whole).1
  | stage chained part => exact (segments_awaited whole).2 _ part
  | mapping call =>
    obtain ⟨inside, found⟩ := Option.isSome_iff_exists.mp (closed rfl call)
    cases us with
    | nil => cases found
    | cons t us =>
      -- the name in front of the parentheses waits for nothing, as nothing is left in the end
      obtain ⟨opener, closer, rfl, opening, closing, nested⟩ := of_group? found
      have parens : Nested (opener :: inside ++ [closer]) :=
        nested.enclose (isOpener_of_beq rfl _ opening) closing
      have group := (show Matched ([t] ++ _) from whole).of_append parens
      have inner := (group.2.of_enclose (isOpener_of_beq rfl _ opening) nested).2
      simpa using inner
  | body arrow => exact whole.forall_pieces rfl _ (mem_pieces_of_parts arrow (.inr rfl))

theorem Visits.matched (visits : Visits ts here us) (whole : Matched ts)
    (closed : ∀ us, Visits ts .stage us → MappingClosed us) : Matched us := by
  induction visits with
  | start => exact whole
  | next visits hands ih =>
    refine hands.matched ih ?_
    rintro rfl
    exact closed _ visits

end Matched

section Enclosed

variable {e : String} {ts : List Token} {tail : List Char}

/-- Whatever closer stands at the end, a parenthesis in front makes a group. -/
theorem Spells.parse_parens (spells : Spells e.toList ts tail) {closer : Kind}
    (closing : closer.isCloser = true) {text : String}
    (shape : text.toList = '(' :: e.toList ++ closer.sign) :
    parse text = (disjunction ts).checked := by
  have around := spells.enclose (show Kind.leftParen.isOpener = true from rfl) closing
  rw [show Kind.leftParen.sign ++ e.toList ++ closer.sign = text.toList from shape.symm] at around
  rw [around.parse_eq]
  exact congrArg Expr.checked (readAt_group rfl closing spells.nested 0)

theorem Spells.parse_braces (spells : Spells e.toList ts tail) {closer : Kind}
    (closing : closer.isCloser = true) {text : String}
    (shape : text.toList = '\x7b' :: e.toList ++ closer.sign) :
    parse text = (Expr.object ((pieces .comma ts).filterMap fun part =>
      (cut .colon 0 part).map fun (name, value) => (propertyName name, whole value))).checked := by
  have around := spells.enclose (show Kind.leftBrace.isOpener = true from rfl) closing
  rw [show Kind.leftBrace.sign ++ e.toList ++ closer.sign = text.toList from shape.symm] at around
  have holds : Holds 8 (sign .leftBrace [] :: ts ++ [sign closer tail]) :=
    holds_enclose rfl closing spells.nested
  have single : disjunction (sign .leftBrace [] :: ts ++ [sign closer tail]) =
      operand (sign .leftBrace [] :: ts ++ [sign closer tail]) := holds.readAt_eq (Nat.zero_le 8)
  have none : group? isGroupOpener (sign .leftBrace [] :: ts ++ [sign closer tail]) = none := rfl
  rw [around.parse_eq, single,
    operand_of_braces none (group?_enclose rfl closing spells.nested)]
  rfl

end Enclosed

/-- The parser reads a tree off the tokens that it comes to, and at all of these brackets go by kind
if in the text they match by kind and the parenthesis of each mapping closes at its end. But in front
of any text that opens and closes as many brackets, a parenthesis makes a group and a brace an object
whatever closer stands behind it. -/
theorem brackets_byKind (e : String) :
    (∀ lexed, tokenize e.toList = .ok lexed →
      (∀ tree, parse e = .ok tree → ∀ x, tree.Has x → ReadOff lexed.tokens x) ∧
      (Matched lexed.tokens → (∀ ts, Visits lexed.tokens .stage ts → MappingClosed ts) →
        ∀ level ts, Visits lexed.tokens level ts → ByKind ts)) ∧
    (Admissible e → ∀ closer ∈ [")", "\x7d", "]"],
      parse ("(" ++ e ++ closer) = parse e ∧
      parse ("\x7b" ++ e ++ closer) = parse ("\x7b" ++ e ++ "\x7d") ∧
      ∃ properties, parse ("\x7b" ++ e ++ closer) = (Expr.object properties).checked) := by
  constructor
  · intro lexed read
    constructor
    · intro tree parsed x has
      rw [parse, read] at parsed
      obtain ⟨-, rfl⟩ := Expr.checked_eq_ok.mp parsed
      exact readOff_of_has has
    · intro matching closed level ts visits
      exact (visits.matched matching closed).byKind
  · intro admissible closer listed
    obtain ⟨ts, tail, spells⟩ := admissible.spells
    obtain ⟨kind, closing, sign⟩ : ∃ kind : Kind, kind.isCloser = true ∧ closer.toList = kind.sign := by
      simp only [List.mem_cons, List.not_mem_nil, or_false] at listed
      rcases listed with rfl | rfl | rfl
      · exact ⟨.rightParen, rfl, rfl⟩
      · exact ⟨.rightBrace, rfl, rfl⟩
      · exact ⟨.rightBracket, rfl, rfl⟩
    have parens : ("(" ++ e ++ closer).toList = '(' :: e.toList ++ kind.sign := by simp [sign]
    have braces : ("\x7b" ++ e ++ closer).toList = '\x7b' :: e.toList ++ kind.sign := by simp [sign]
    have closed : ("\x7b" ++ e ++ "\x7d").toList = '\x7b' :: e.toList ++ Kind.rightBrace.sign := by
      simp [Kind.sign]
    have object := spells.parse_braces closing braces
    exact ⟨(spells.parse_parens closing parens).trans spells.parse_eq.symm,
      object.trans (spells.parse_braces rfl closed).symm, _, object⟩

theorem brackets_byKind_mapped :
    let lexed : Lexed := ⟨[sign .leftParen [], ⟨.word, [], ['p']⟩, sign .question [],
      ⟨.word, [], "then".toList⟩, sign .leftParen [], sign .leftBrace [], ⟨.word, [], ['k']⟩,
      sign .colon [], ⟨.word, [' '], ['q']⟩, sign .rightBrace [], sign .comma [],
      sign .leftBracket [' '], ⟨.word, [], ['r']⟩, sign .rightBracket [], sign .rightParen [],
      sign .rightParen [], sign .question [], ⟨.word, [], "map".toList⟩, sign .leftParen [],
      ⟨.word, [], ['x']⟩, sign .arrow [' '], ⟨.word, [' '], ['x']⟩, sign .rightParen []], []⟩
    tokenize "(p?then(\x7bk: q\x7d, [r]))?map(x -> x)".toList = .ok lexed ∧ Matched lexed.tokens ∧
      (∀ ts, Visits lexed.tokens .stage ts → MappingClosed ts) ∧
      (∀ level ts, Visits lexed.tokens level ts → ByKind ts) ∧
      Admissible "[p\x7d" ∧ parse "([p\x7d]" = parse "[p\x7d" := by
  intro lexed
  have read : tokenize "(p?then(\x7bk: q\x7d, [r]))?map(x -> x)".toList = .ok lexed := by
    decide +kernel
  have matching : Matched lexed.tokens := by decide
  have closed : ∀ ts, Visits lexed.tokens .stage ts → MappingClosed ts := by
    have all : ∀ us ∈ lexed.tokens.tails, ∀ ts ∈ us.inits, MappingClosed ts := by decide +kernel
    intro ts visits
    obtain ⟨us, before, behind⟩ := List.infix_iff_prefix_suffix.mp visits.isInfix
    exact all us ((List.mem_tails _ _).mpr behind) ts ((List.mem_inits _ _).mpr before)
  have nested : Admissible "[p\x7d" := by decide +kernel
  exact ⟨read, matching, closed, ((brackets_byKind _).1 lexed read).2 matching closed, nested,
    ((brackets_byKind _).2 nested "]" (by decide)).1⟩

theorem bracket_closes_parenthesis :
    parse "(a]" = .ok (.path "a") ∧ ∃ properties, parse "\x7ba: b)" = .ok (.object properties) := by
  have word : IsWord "a" := by decide +kernel
  have path : parse "a" = .ok (.path "a") := parse_of_word word rfl rfl (by decide) (by decide)
  have name : Admissible "a" := by decide +kernel
  obtain ⟨ts, tail, spells⟩ := name.spells
  have read : tokenize "a: b".toList =
      .ok ⟨[⟨.word, [], ['a']⟩, sign .colon [], ⟨.word, [' '], ['b']⟩], []⟩ := by decide +kernel
  have property := spells_of_read read (.cons rfl (.cons rfl (.cons rfl .nil))) (List.cons_ne_nil _ _)
  have value : whole [⟨.word, [' '], ['b']⟩] = .path "b" := by
    rw [whole_eq (List.cons_ne_nil _ _)]
    exact disjunction_leaf (.inl rfl)
  have parens : "(a]".toList = '(' :: "a".toList ++ Kind.rightBracket.sign := rfl
  have braces : "\x7ba: b)".toList = '\x7b' :: "a: b".toList ++ Kind.rightParen.sign := rfl
  have group := spells.parse_parens rfl parens
  refine ⟨group.trans (spells.parse_eq.symm.trans path), [("a", .path "b")], ?_⟩
  have object : parse "\x7ba: b)" = (Expr.object [("a", whole [⟨.word, [' '], ['b']⟩])]).checked :=
    property.parse_braces rfl braces
  rw [object, value]
  exact Expr.checked_of_readable rfl

end Walkthrough.Expression
