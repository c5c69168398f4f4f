import Mathlib.Data.List.Infix
import Walkthrough.Proofs.Expression.Levels
import Walkthrough.Proofs.Expression.Matching

/-! Where the parser comes. On each level it hands tokens on, all of them or those between exposed
operators or brackets; so whatever it comes to lies in one piece in the tokens it began with. And it
comes to everything it reads: each expression of a tree has been read off tokens of its own. -/
namespace Walkthrough.Expression

/-- What the parser looks for in tokens. -/
inductive Level where
  | whole | disjunction | conjunction | conditional | branches | equality | relational | operand
  | properties | property | stage | mapping
  deriving DecidableEq, Repr

def pieces (kind : Kind) (ts : List Token) : List (List Token) :=
  (split kind 0 ts).1 :: (split kind 0 ts).2

/-- The tokens are read as a base with stages behind it. -/
structure Chained (ts : List Token) : Prop where
  ungrouped : Ungrouped ts
  single : (split .plus 0 ts).2 = []
  positive : ∀ t ∈ ts.head?, t.kind ≠ .not
  unasked : ∀ t ∈ ts.getLast?, t.kind ≠ .exist
  staged : (segments 0 ts).2 ≠ []

/-- The parser, at tokens on one level, hands these tokens on to another. -/
inductive Hands : Level → List Token → Level → List Token → Prop where
  | placeholder {ts inside : List Token} (found : group? (· == .dollarBrace) ts = some inside) :
      Hands .whole ts .disjunction inside
  | bare {ts : List Token} (solid : ts ≠ []) (none : group? (· == .dollarBrace) ts = none) :
      Hands .whole ts .disjunction ts
  | alternative {ts p : List Token} (part : p ∈ pieces .or ts) : Hands .disjunction ts .conjunction p
  | conjunct {ts p : List Token} (part : p ∈ pieces .and ts) : Hands .conjunction ts .conditional p
  | call {ts before behind inside : List Token} (marked : lastThen 0 ts = some (before, behind))
      (given : before ≠ []) (closed : enclosed 0 behind = some (inside, [])) :
      Hands .conditional ts .branches inside
  | condition {ts before behind inside yes no : List Token}
      (marked : lastThen 0 ts = some (before, behind)) (given : before ≠ [])
      (closed : enclosed 0 behind = some (inside, [])) (two : split .comma 0 inside = (yes, [no])) :
      Hands .conditional ts .disjunction before
  | branch {ts yes no p : List Token} (two : split .comma 0 ts = (yes, [no]))
      (side : p = yes ∨ p = no) : Hands .branches ts .conditional p
  | unconditional {ts : List Token} (none : conditional? ts = none) :
      Hands .conditional ts .equality ts
  | compared {ts : List Token} {comparison : Comparison} {left right p : Shorter ts.length}
      (found : equalityOf? ts = some (comparison, left, right)) (side : p = left ∨ p = right) :
      Hands .equality ts .relational p.val
  | uncompared {ts : List Token} (none : equalityOf? ts = none) : Hands .equality ts .relational ts
  | related {ts : List Token} {relation : Relation} {left right p : Shorter ts.length}
      (found : relationOf? ts = some (relation, left, right)) (side : p = left ∨ p = right) :
      Hands .relational ts .operand p.val
  | unrelated {ts : List Token} (none : relationOf? ts = none) : Hands .relational ts .operand ts
  | group {ts inside : List Token} (found : group? isGroupOpener ts = some inside) :
      Hands .operand ts .disjunction inside
  | object {ts inside : List Token} (found : group? (· == .leftBrace) ts = some inside) :
      Hands .operand ts .properties inside
  | property {ts p : List Token} (part : p ∈ pieces .comma ts) : Hands .properties ts .property p
  | value {ts name value : List Token} (found : cut .colon 0 ts = some (name, value)) :
      Hands .property ts .whole value
  | summand {ts p : List Token} (ungrouped : Ungrouped ts) (several : (split .plus 0 ts).2 ≠ [])
      (part : p ∈ pieces .plus ts) : Hands .operand ts .operand p
  | negated {t : Token} {ts : List Token} (ungrouped : Ungrouped (t :: ts))
      (single : (split .plus 0 (t :: ts)).2 = []) (negation : t.kind = .not) :
      Hands .operand (t :: ts) .operand ts
  | base {ts : List Token} (chained : Chained ts) : Hands .operand ts .whole (segments 0 ts).1
  | stage {ts p : List Token} (chained : Chained ts) (part : p ∈ (segments 0 ts).2) :
      Hands .operand ts .stage p
  | mapping {ts : List Token} (call : isCall "map" (raw ts) = true) :
      Hands .stage ts .mapping (ts.drop 2).dropLast
  | body {ts item body : List Token} {rest : List (List Token)}
      (arrow : split .arrow 0 ts = (item, body :: rest)) : Hands .mapping ts .whole body

/-- The parser comes to these tokens when it reads the first. -/
inductive Visits (ts : List Token) : Level → List Token → Prop where
  | start : Visits ts .whole ts
  | next {here there : Level} {us vs : List Token} (visits : Visits ts here us)
      (hands : Hands here us there vs) : Visits ts there vs

section Pieces

variable {kind : Kind} {ts : List Token}

theorem mem_pieces_of_parts {first second p : List Token} {rest : List (List Token)}
    (parts : split kind 0 ts = (first, second :: rest)) (side : p = first ∨ p = second) :
    p ∈ pieces kind ts := by
  rw [pieces, parts]
  rcases side with rfl | rfl <;> simp

theorem mem_pieces_of_divide? {first second p : Shorter ts.length} {rest : List (Shorter ts.length)}
    (divided : divide? kind ts = some (first, second :: rest)) (side : p = first ∨ p = second) :
    p.val ∈ pieces kind ts := by
  unfold divide? at divided
  split at divided
  · cases divided
  · simp only [Option.some.injEq, Prod.mk.injEq] at divided
    obtain ⟨rfl, listed⟩ := divided
    rcases side with rfl | rfl
    · exact List.mem_cons_self
    · have inside : p ∈ p :: rest := List.mem_cons_self
      rw [← listed] at inside
      obtain ⟨q, -, rfl⟩ := List.mem_map.mp inside
      exact List.mem_cons_of_mem _ q.property

/-- The sides of a comparison are pieces at one of the operators that are looked for. -/
theorem mem_pieces_of_findSome? {α : Type} {kinds : List (Kind × α)} {x : α}
    {left right p : Shorter ts.length} (found : (kinds.findSome? fun (kind, y) =>
      match divide? kind ts with
      | some (l, r :: _) => some (y, l, r)
      | _ => none) = some (x, left, right)) (side : p = left ∨ p = right) :
    ∃ k ∈ kinds, p.val ∈ pieces k.1 ts := by
  obtain ⟨⟨kind, y⟩, listed, divided⟩ := List.exists_of_findSome?_eq_some found
  dsimp only at divided
  split at divided
  · rename_i divided'
    cases divided
    exact ⟨_, listed, mem_pieces_of_divide? divided' side⟩
  · cases divided

end Pieces

section Infix

variable {kind : Kind} {depth : Int} {ts us vs : List Token} {here there : Level}

theorem split_isInfix (kind : Kind) (depth : Int) (ts : List Token) :
    (split kind depth ts).1 <+: ts ∧ ∀ p ∈ (split kind depth ts).2, p <:+: ts := by
  induction ts generalizing depth with
  | nil => exact ⟨List.prefix_rfl, nofun⟩
  | cons t ts ih =>
    obtain ⟨first, rest⟩ := ih (depthAfter depth t)
    have behind : ∀ p ∈ (split kind (depthAfter depth t) ts).2, p <:+: t :: ts :=
      fun p inside => List.infix_cons (rest p inside)
    rw [split_cons]
    split
    · exact ⟨List.nil_prefix, List.forall_mem_cons.mpr ⟨List.infix_cons first.isInfix, behind⟩⟩
    · exact ⟨List.cons_prefix_cons.mpr ⟨rfl, first⟩, behind⟩

theorem segments_isInfix (depth : Int) (ts : List Token) :
    (segments depth ts).1 <+: ts ∧ ∀ p ∈ (segments depth ts).2, p <:+: ts := by
  induction ts generalizing depth with
  | nil => exact ⟨List.prefix_rfl, nofun⟩
  | cons t ts ih =>
    obtain ⟨first, rest⟩ := ih (depthAfter depth t)
    have behind : ∀ p ∈ (segments (depthAfter depth t) ts).2, p <:+: t :: ts :=
      fun p inside => List.infix_cons (rest p inside)
    have parts : ∀ p ∈ (segments (depthAfter depth t) ts).1 :: (segments (depthAfter depth t) ts).2,
        p <:+: t :: ts := List.forall_mem_cons.mpr ⟨List.infix_cons first.isInfix, behind⟩
    rw [segments_cons]
    split
    · exact ⟨List.nil_prefix, parts⟩
    · split
      · exact ⟨List.nil_prefix, List.forall_mem_cons.mpr ⟨List.nil_infix, parts⟩⟩
      · exact ⟨List.cons_prefix_cons.mpr ⟨rfl, first⟩, behind⟩

theorem isInfix_of_mem_pieces {p : List Token} (piece : p ∈ pieces kind ts) : p <:+: ts := by
  obtain ⟨first, rest⟩ := split_isInfix kind 0 ts
  rcases List.mem_cons.mp piece with rfl | later
  · exact first.isInfix
  · exact rest p later

theorem isInfix_of_group? {opens : Kind → Bool} {inside : List Token}
    (found : group? opens ts = some inside) : inside <:+: ts := by
  obtain ⟨opener, closer, rfl, -⟩ := of_group? found
  exact ⟨[opener], [closer], rfl⟩

theorem isInfix_of_lastThen {before behind inside after : List Token}
    (marked : lastThen 0 ts = some (before, behind)) (closed : enclosed 0 behind = some (inside, after)) :
    before <:+: ts ∧ inside <:+: ts := by
  obtain ⟨mark, word, paren, rfl, -⟩ := of_lastThen marked
  obtain ⟨closer, rfl, -⟩ := of_enclosed closed
  refine ⟨(List.prefix_append ..).isInfix, before ++ [mark, word, paren], closer :: after, ?_⟩
  simp

theorem Hands.isInfix (hands : Hands here us there vs) : vs <:+: us := by
  cases hands with
  | placeholder found | group found | object found => exact isInfix_of_group? found
  | bare | unconditional | uncompared | unrelated => exact List.infix_rfl
  | alternative part | conjunct part | property part | summand _ _ part =>
    exact isInfix_of_mem_pieces part
  | call marked given closed => exact (isInfix_of_lastThen marked closed).2
  | condition marked given closed two => exact (isInfix_of_lastThen marked closed).1
  | branch two side => exact isInfix_of_mem_pieces (mem_pieces_of_parts two side)
  | compared found side | related found side =>
    obtain ⟨k, -, piece⟩ := mem_pieces_of_findSome? found side
    exact isInfix_of_mem_pieces piece
  | value found =>
    obtain ⟨t, rfl, -⟩ := of_cut found
    exact ((List.suffix_cons t _).trans (List.suffix_append ..)).isInfix
  | negated => exact (List.suffix_cons ..).isInfix
  | base => exact (segments_isInfix 0 us).1.isInfix
  | stage chained part => exact (segments_isInfix 0 us).2 _ part
  | mapping => exact (List.dropLast_prefix _).isInfix.trans (List.drop_suffix ..).isInfix
  | body arrow => exact isInfix_of_mem_pieces (mem_pieces_of_parts arrow (.inr rfl))

theorem Visits.isInfix (visits : Visits ts here us) : us <:+: ts := by
  induction visits with
  | start => exact List.infix_rfl
  | next _ hands ih => exact hands.isInfix.trans ih

end Infix

/-- What the parser makes of tokens on a level. Some levels make no expression of their own. -/
def readOn? : Level → List Token → Option Expr
  | .whole, ts => some (whole ts)
  | .disjunction, ts => some (disjunction ts)
  | .conjunction, ts => some (conjunction ts)
  | .conditional, ts => some (conditional ts)
  | .equality, ts => some (equality ts)
  | .relational, ts => some (relational ts)
  | .operand, ts => some (operand ts)
  | _, _ => none

def Stage.bodies : Stage → List Expr
  | .map _ body => [body]
  | _ => []

def Expr.children : Expr → List Expr
  | .either first rest | .both first rest => first :: rest
  | .choose condition yes no => [condition, yes, no]
  | .compare _ left right => [left, right]
  | .not operand => [operand]
  | .concat parts => parts
  | .object properties => properties.map (·.2)
  | .chain base stages => base :: stages.flatMap Stage.bodies
  | .literal _ | .unread _ | .path _ | .exist _ => []

/-- The expressions that a tree is made of, itself among them. -/
inductive Expr.Has (tree : Expr) : Expr → Prop where
  | whole : Expr.Has tree tree
  | child {x y : Expr} (has : Expr.Has tree x) (child : y ∈ x.children) : Expr.Has tree y

/-- The parser, when it reads the tokens, comes to tokens of which it makes the expression. -/
def ReadOff (ts : List Token) (x : Expr) : Prop :=
  ∃ level us, Visits ts level us ∧ readOn? level us = some x

section ReadOff

variable {ts us : List Token}

theorem mem_pieces_self {kind : Kind} (one : (split kind 0 ts).2 = []) : ts ∈ pieces kind ts := by
  have length := split_length kind 0 ts
  rw [one] at length
  have same : (split kind 0 ts).1 = ts := (split_isInfix kind 0 ts).1.eq_of_length length
  rw [pieces, same]
  exact List.mem_cons_self

theorem readOff_disjunction (visits : Visits ts .disjunction us)
    (inner : Visits ts .conjunction us → ∀ x ∈ (conjunction us).children, ReadOff ts x) :
    ∀ x ∈ (disjunction us).children, ReadOff ts x := by
  rcases parts : split .or 0 us with ⟨first, _ | ⟨second, rest⟩⟩
  · have one : (split .or 0 us).2 = [] := by rw [parts]
    rw [disjunction_of_one one]
    exact inner (visits.next (.alternative (mem_pieces_self one)))
  · have children : (disjunction us).children = (pieces .or us).map conjunction := by
      rw [disjunction_of_parts parts, pieces, parts]
      rfl
    intro x child
    rw [children] at child
    obtain ⟨p, piece, rfl⟩ := List.mem_map.mp child
    exact ⟨.conjunction, p, visits.next (.alternative piece), rfl⟩

theorem readOff_conjunction (visits : Visits ts .conjunction us)
    (inner : Visits ts .conditional us → ∀ x ∈ (conditional us).children, ReadOff ts x) :
    ∀ x ∈ (conjunction us).children, ReadOff ts x := by
  rcases parts : split .and 0 us with ⟨first, _ | ⟨second, rest⟩⟩
  · have one : (split .and 0 us).2 = [] := by rw [parts]
    rw [conjunction_of_one one]
    exact inner (visits.next (.conjunct (mem_pieces_self one)))
  · have children : (conjunction us).children = (pieces .and us).map conditional := by
      rw [conjunction_of_parts parts, pieces, parts]
      rfl
    intro x child
    rw [children] at child
    obtain ⟨p, piece, rfl⟩ := List.mem_map.mp child
    exact ⟨.conditional, p, visits.next (.conjunct piece), rfl⟩

theorem of_conditional? {condition yes no : Shorter us.length}
    (found : conditional? us = some (condition, yes, no)) : ∃ behind inside,
    lastThen 0 us = some (condition.val, behind) ∧ condition.val ≠ [] ∧
      enclosed 0 behind = some (inside, []) ∧ split .comma 0 inside = (yes.val, [no.val]) := by
  unfold conditional? at found
  split at found
  · cases found
  · rename_i before behind marked
    split at found
    · cases found
    · rename_i given
      split at found
      · rename_i inside closed
        split at found
        · rename_i yes' no' two
          cases found
          exact ⟨behind, inside, marked, by simpa using given, closed, two⟩
        · cases found
      · cases found

/-- A mark of `then` asks for nothing unless all its parts are there. -/
theorem conditional?_eq_none {before behind : List Token} (marked : lastThen 0 us = some (before, behind))
    (missing : ∀ inside yes no, before ≠ [] → enclosed 0 behind = some (inside, []) →
      split .comma 0 inside ≠ (yes, [no])) : conditional? us = none := by
  cases found : conditional? us with
  | none => rfl
  | some parts =>
    obtain ⟨behind', inside, marked', given, closed, two⟩ := of_conditional? found
    cases marked.symm.trans marked'
    exact absurd two (missing _ _ _ given closed)

theorem readOff_conditional (visits : Visits ts .conditional us)
    (inner : Visits ts .equality us → ∀ x ∈ (equality us).children, ReadOff ts x) :
    ∀ x ∈ (conditional us).children, ReadOff ts x := by
  rw [conditional]
  cases found : conditional? us with
  | none => exact inner (visits.next (.unconditional found))
  | some branches =>
    obtain ⟨condition, yes, no⟩ := branches
    obtain ⟨behind, inside, marked, given, closed, two⟩ := of_conditional? found
    have call : Visits ts .branches inside := visits.next (.call marked given closed)
    intro x child
    simp only [Expr.children, List.mem_cons, List.not_mem_nil, or_false] at child
    rcases child with rfl | rfl | rfl
    · exact ⟨.disjunction, _, visits.next (.condition marked given closed two), rfl⟩
    · exact ⟨.conditional, _, call.next (.branch two (.inl rfl)), rfl⟩
    · exact ⟨.conditional, _, call.next (.branch two (.inr rfl)), rfl⟩

theorem readOff_equality (visits : Visits ts .equality us)
    (inner : Visits ts .relational us → ∀ x ∈ (relational us).children, ReadOff ts x) :
    ∀ x ∈ (equality us).children, ReadOff ts x := by
  rw [equality]
  cases found : equalityOf? us with
  | none => exact inner (visits.next (.uncompared found))
  | some sides =>
    obtain ⟨comparison, left, right⟩ := sides
    intro x child
    simp only [Expr.children, List.mem_cons, List.not_mem_nil, or_false] at child
    rcases child with rfl | rfl
    · exact ⟨.relational, _, visits.next (.compared found (.inl rfl)), rfl⟩
    · exact ⟨.relational, _, visits.next (.compared found (.inr rfl)), rfl⟩

theorem readOff_relational (visits : Visits ts .relational us)
    (inner : Visits ts .operand us → ∀ x ∈ (operand us).children, ReadOff ts x) :
    ∀ x ∈ (relational us).children, ReadOff ts x := by
  rw [relational]
  cases found : relationOf? us with
  | none => exact inner (visits.next (.unrelated found))
  | some sides =>
    obtain ⟨relation, left, right⟩ := sides
    intro x child
    simp only [Expr.children, List.mem_cons, List.not_mem_nil, or_false] at child
    rcases child with rfl | rfl
    · exact ⟨.operand, _, visits.next (.related found (.inl rfl)), rfl⟩
    · exact ⟨.operand, _, visits.next (.related found (.inr rfl)), rfl⟩

theorem readOff_leaf (cs : List Char) : ∀ x ∈ (leaf cs).children, ReadOff ts x := by
  have none : (leaf cs).children = [] := by
    unfold leaf
    split
    · rfl
    · split
      · rfl
      · rfl
      · split
        · rfl
        · split
          · rfl
          · split <;> rfl
  rw [none]
  exact List.forall_mem_nil (ReadOff ts)

theorem of_mappingForm? {item : String} {body : Shorter us.length}
    (found : mappingForm? us = some (item, body)) :
    ∃ front rest, split .arrow 0 (us.drop 2).dropLast = (front, body.val :: rest) := by
  unfold mappingForm? at found
  split at found
  · rename_i parts
    cases found
    exact ⟨_, _, parts⟩
  · cases found

theorem mappingForm?_of_one (one : (split .arrow 0 (us.drop 2).dropLast).2 = []) :
    mappingForm? us = none := by
  cases found : mappingForm? us with
  | none => rfl
  | some form =>
    obtain ⟨front, rest, parts⟩ := of_mappingForm? found
    rw [parts] at one
    cases one

theorem stageForm_cases (us : List Token) :
    (∃ stage, stageForm us = .ready stage ∧ stage.bodies = []) ∨
      ∃ item body, isCall "map" (raw us) = true ∧ mappingForm? us = some (item, body) ∧
        stageForm us = .mapping item body := by
  unfold stageForm
  dsimp only
  repeat' split
  all_goals first
    | exact .inl ⟨_, rfl, rfl⟩
    | rename_i call _ _ _ found
      exact .inr ⟨_, _, call, found, rfl⟩

/-- The body of a stage is read behind its first arrow. -/
theorem of_mem_bodies {x : Expr} (inside : x ∈ (stageOf us).bodies) :
    isCall "map" (raw us) = true ∧ ∃ item tokens rest,
      split .arrow 0 (us.drop 2).dropLast = (item, tokens :: rest) ∧ x = whole tokens := by
  unfold stageOf at inside
  rcases stageForm_cases us with ⟨stage, form, none⟩ | ⟨item, body, call, found, form⟩
  · rw [form] at inside
    rw [none] at inside
    cases inside
  · rw [form] at inside
    obtain ⟨front, rest, parts⟩ := of_mappingForm? found
    exact ⟨call, front, body.val, rest, parts, List.mem_singleton.mp inside⟩

theorem readOff_chain (visits : Visits ts .operand us) (chained : Chained us) :
    ∀ x ∈ (operand us).children, ReadOff ts x := by
  rcases parts : segments 0 us with ⟨first, _ | ⟨second, rest⟩⟩
  · exact absurd (by rw [parts]) chained.staged
  · have base : (segments 0 us).1 = first := by rw [parts]
    have stages : (segments 0 us).2 = second :: rest := by rw [parts]
    intro x child
    rw [operand_of_chain chained.ungrouped chained.single chained.positive chained.unasked parts]
      at child
    rcases List.mem_cons.mp child with rfl | inside
    · exact ⟨.whole, _, visits.next (.base chained), by rw [base]; rfl⟩
    · obtain ⟨stage, listed, body⟩ := List.mem_flatMap.mp inside
      obtain ⟨p, part, rfl⟩ := List.mem_map.mp listed
      obtain ⟨call, item, tokens, more, arrow, rfl⟩ := of_mem_bodies body
      rw [← stages] at part
      have mapping := (visits.next (.stage chained part)).next (.mapping call)
      exact ⟨.whole, _, mapping.next (.body arrow), rfl⟩

/-- Neither brackets nor a sum: a negation, a question, a chain or a leaf. -/
theorem readOff_single (visits : Visits ts .operand us) (ungrouped : Ungrouped us)
    (single : (split .plus 0 us).2 = []) : ∀ x ∈ (operand us).children, ReadOff ts x := by
  by_cases solid : us = []
  · subst solid
    rw [operand]
    exact List.forall_mem_nil (ReadOff ts)
  · by_cases negative : ∃ t ∈ us.head?, t.kind = .not
    · obtain ⟨t, first, negation⟩ := negative
      obtain ⟨us, rfl⟩ := List.head?_eq_some_iff.mp first
      rw [operand_of_negation ungrouped negation single]
      intro x child
      cases List.mem_singleton.mp child
      exact ⟨.operand, us, visits.next (.negated ungrouped single negation), rfl⟩
    · have positive : ∀ t ∈ us.head?, t.kind ≠ .not := fun t first is => negative ⟨t, first, is⟩
      by_cases asked : ∃ t ∈ us.getLast?, t.kind = .exist
      · obtain ⟨t, last, exist⟩ := asked
        obtain ⟨front, rfl⟩ := List.getLast?_eq_some_iff.mp last
        rw [operand_of_exist ungrouped exist single positive]
        exact List.forall_mem_nil (ReadOff ts)
      · have unasked : ∀ t ∈ us.getLast?, t.kind ≠ .exist := fun t last is => asked ⟨t, last, is⟩
        by_cases staged : (segments 0 us).2 = []
        · rw [operand_of_leaf ungrouped solid single positive unasked staged]
          exact readOff_leaf (raw us)
        · exact readOff_chain visits ⟨ungrouped, single, positive, unasked, staged⟩

theorem readOff_operand (visits : Visits ts .operand us)
    (inner : ∀ inside, inside.length < us.length → Visits ts .disjunction inside →
      ∀ x ∈ (disjunction inside).children, ReadOff ts x) :
    ∀ x ∈ (operand us).children, ReadOff ts x := by
  cases group : group? isGroupOpener us with
  | some inside =>
    rw [operand_of_group group]
    exact inner inside (group?_length group) (visits.next (.group group))
  | none =>
    cases braces : group? (· == .leftBrace) us with
    | some inside =>
      intro x child
      rw [operand_of_braces group braces] at child
      obtain ⟨⟨name, value⟩, listed, rfl⟩ := List.mem_map.mp child
      obtain ⟨part, piece, found⟩ := List.mem_filterMap.mp listed
      obtain ⟨⟨key, tokens⟩, colon, same⟩ := Option.map_eq_some_iff.mp found
      cases same
      have object := visits.next (.object braces)
      exact ⟨.whole, tokens, (object.next (.property piece)).next (.value colon), rfl⟩
    | none =>
      have ungrouped : Ungrouped us := ⟨group, braces⟩
      rcases parts : split .plus 0 us with ⟨first, _ | ⟨second, rest⟩⟩
      · exact readOff_single visits ungrouped (by rw [parts])
      · have several : (split .plus 0 us).2 ≠ [] := by simp [parts]
        have children : (operand us).children = (pieces .plus us).map operand := by
          rw [operand_of_sum ungrouped parts, pieces, parts]
          rfl
        intro x child
        rw [children] at child
        obtain ⟨p, piece, rfl⟩ := List.mem_map.mp child
        exact ⟨.operand, p, visits.next (.summand ungrouped several piece), rfl⟩

/-- What a level makes of tokens it makes of what it hands on, or else a tighter level makes it. An
operand may be a group; its inside is shorter, and is read on the loosest level again. -/
theorem readOff_loosest (us : List Token) (visits : Visits ts .disjunction us) :
    ∀ x ∈ (disjunction us).children, ReadOff ts x := by
  apply readOff_disjunction visits
  intro visits
  apply readOff_conjunction visits
  intro visits
  apply readOff_conditional visits
  intro visits
  apply readOff_equality visits
  intro visits
  apply readOff_relational visits
  intro visits
  apply readOff_operand visits
  intro inside shorter visits
  exact readOff_loosest inside visits
termination_by us.length

theorem readOff_whole (visits : Visits ts .whole us) :
    ∀ x ∈ (whole us).children, ReadOff ts x := by
  by_cases solid : us = []
  · subst solid
    rw [whole]
    exact List.forall_mem_nil (ReadOff ts)
  · have nonempty : us.isEmpty = false := by simpa using solid
    cases found : group? (· == .dollarBrace) us with
    | none =>
      rw [whole, nonempty, inside?_of_none found]
      exact readOff_loosest us (visits.next (.bare solid found))
    | some inside =>
      obtain ⟨i, found', rfl⟩ := inside?_of_some found
      rw [whole, nonempty, found']
      exact readOff_loosest _ (visits.next (.placeholder found))

theorem readOff_children {level : Level} {x : Expr} (visits : Visits ts level us)
    (read : readOn? level us = some x) : ∀ y ∈ x.children, ReadOff ts y := by
  have operands {us : List Token} (visits : Visits ts .operand us) :=
    readOff_operand visits fun inside _ => readOff_loosest inside
  have relations {us : List Token} (visits : Visits ts .relational us) :=
    readOff_relational visits operands
  have equalities {us : List Token} (visits : Visits ts .equality us) :=
    readOff_equality visits relations
  have conditionals {us : List Token} (visits : Visits ts .conditional us) :=
    readOff_conditional visits equalities
  cases level with
  | whole =>
    cases read
    exact readOff_whole visits
  | disjunction =>
    cases read
    exact readOff_loosest us visits
  | conjunction =>
    cases read
    exact readOff_conjunction visits conditionals
  | conditional =>
    cases read
    exact conditionals visits
  | equality =>
    cases read
    exact equalities visits
  | relational =>
    cases read
    exact relations visits
  | operand =>
    cases read
    exact operands visits
  | branches | properties | property | stage | mapping => cases read

/-- Every expression of a tree has been read off tokens that the parser comes to. -/
theorem readOff_of_has {x : Expr} (has : (whole ts).Has x) : ReadOff ts x := by
  induction has with
  | whole => exact ⟨.whole, ts, .start, rfl⟩
  | child has child ih =>
    obtain ⟨level, us, visits, read⟩ := ih
    exact readOff_children visits read _ child

end ReadOff

end Walkthrough.Expression
