import Walkthrough.Expression.Parser
import Walkthrough.Proofs.Expression.Nesting

/-! The levels of the parser as equations on token lists, without the bounds on lengths that keep
the parser going down. A level either divides a list at its own operators or hands the list to the
next; so a list that shows no operator of some levels is read by all of these alike. -/
namespace Walkthrough.Expression

section Divided

variable {kind : Kind} {ts first second : List Token} {rest : List (List Token)}

theorem divide?_of_one (one : (split kind 0 ts).2 = []) : divide? kind ts = none := by
  rw [divide?, dif_pos one]

theorem divide?_of_parts (parts : split kind 0 ts = (first, second :: rest)) :
    ∃ f r, divide? kind ts = some (f, r) ∧ f.val = first ∧ r.map (·.val) = second :: rest := by
  have some : (split kind 0 ts).2 ≠ [] := by simp [parts]
  rw [divide?, dif_neg some]
  refine ⟨_, _, rfl, congrArg Prod.fst parts, ?_⟩
  rw [List.map_map]
  exact (List.attach_map_subtype_val _).trans (congrArg Prod.snd parts)

theorem stages?_of_one (one : (segments 0 ts).2 = []) : stages? ts = none := by
  rw [stages?, dif_pos one]

theorem stages?_of_parts (parts : segments 0 ts = (first, second :: rest)) :
    ∃ f r, stages? ts = some (f, r) ∧ f.val = first ∧ r.map (·.val) = second :: rest := by
  have some : (segments 0 ts).2 ≠ [] := by simp [parts]
  rw [stages?, dif_neg some]
  refine ⟨_, _, rfl, congrArg Prod.fst parts, ?_⟩
  rw [List.map_map]
  exact (List.attach_map_subtype_val _).trans (congrArg Prod.snd parts)

theorem inside?_of_none {p : Kind → Bool} (none : group? p ts = none) : inside? p ts = .none := by
  unfold inside?
  split
  · rename_i found
    cases none.symm.trans found
  · rfl

theorem inside?_of_some {p : Kind → Bool} {inside : List Token} (found : group? p ts = some inside) :
    ∃ i, inside? p ts = some i ∧ i.val = inside := by
  unfold inside?
  split
  · rename_i found'
    cases found.symm.trans found'
    exact ⟨_, rfl, rfl⟩
  · rename_i none
    cases found.symm.trans none

end Divided

section Disjunction

variable {ts first second : List Token} {rest : List (List Token)}

theorem disjunction_of_one (one : (split .or 0 ts).2 = []) : disjunction ts = conjunction ts := by
  rw [disjunction, divide?_of_one one]

theorem disjunction_of_parts (parts : split .or 0 ts = (first, second :: rest)) :
    disjunction ts = .either (conjunction first) ((second :: rest).map conjunction) := by
  obtain ⟨f, r, divided, rfl, same⟩ := divide?_of_parts parts
  rw [disjunction, divided, ← same, List.map_map]
  rfl

theorem conjunction_of_one (one : (split .and 0 ts).2 = []) : conjunction ts = conditional ts := by
  rw [conjunction, divide?_of_one one]

theorem conjunction_of_parts (parts : split .and 0 ts = (first, second :: rest)) :
    conjunction ts = .both (conditional first) ((second :: rest).map conditional) := by
  obtain ⟨f, r, divided, rfl, same⟩ := divide?_of_parts parts
  rw [conjunction, divided, ← same, List.map_map]
  rfl

end Disjunction

section Conditional

variable {ts before behind inside yes no : List Token}

theorem conditional?_of_unmarked (unmarked : lastThen 0 ts = none) : conditional? ts = none := by
  unfold conditional?
  split
  · rfl
  · rename_i marked
    cases unmarked.symm.trans marked

theorem conditional?_of_marked (marked : lastThen 0 ts = some (before, behind)) (given : before ≠ [])
    (closed : enclosed 0 behind = some (inside, []))
    (branches : split .comma 0 inside = (yes, [no])) :
    ∃ c y n, conditional? ts = some (c, y, n) ∧ c.val = before ∧ y.val = yes ∧ n.val = no := by
  unfold conditional?
  split
  · rename_i unmarked
    cases marked.symm.trans unmarked
  · rename_i marked'
    cases marked.symm.trans marked'
    rw [if_neg (by simpa using given)]
    split
    · rename_i closed'
      cases closed.symm.trans closed'
      split
      · rename_i branches'
        cases branches.symm.trans branches'
        exact ⟨_, _, _, rfl, rfl, rfl, rfl⟩
      · rename_i other
        exact absurd branches (other yes no)
    · rename_i other
      exact absurd closed (other inside)

theorem conditional_of_unmarked (unmarked : lastThen 0 ts = none) :
    conditional ts = equality ts := by
  rw [conditional, conditional?_of_unmarked unmarked]

theorem conditional_of_marked (marked : lastThen 0 ts = some (before, behind)) (given : before ≠ [])
    (closed : enclosed 0 behind = some (inside, []))
    (branches : split .comma 0 inside = (yes, [no])) :
    conditional ts = .choose (disjunction before) (conditional yes) (conditional no) := by
  obtain ⟨c, y, n, found, rfl, rfl, rfl⟩ := conditional?_of_marked marked given closed branches
  rw [conditional, found]

end Conditional

section Comparison

variable {ts left right : List Token} {rest : List (List Token)}

theorem equality_of_one (equal : (split .eq 0 ts).2 = []) (unequal : (split .ne 0 ts).2 = []) :
    equality ts = relational ts := by
  have none : equalityOf? ts = none := by
    simp [equalityOf?, List.findSome?, divide?_of_one equal, divide?_of_one unequal]
  rw [equality, none]

theorem equality_of_equal (parts : split .eq 0 ts = (left, right :: rest)) :
    equality ts = .compare .equal (relational left) (relational right) := by
  obtain ⟨f, r, divided, rfl, same⟩ := divide?_of_parts parts
  obtain ⟨g, more, rfl, rfl, -⟩ := List.map_eq_cons_iff.mp same
  have found : equalityOf? ts = some (.equal, f, g) := by
    simp [equalityOf?, List.findSome?, divided]
  rw [equality, found]

theorem equality_of_unequal (equal : (split .eq 0 ts).2 = [])
    (parts : split .ne 0 ts = (left, right :: rest)) :
    equality ts = .compare .unequal (relational left) (relational right) := by
  obtain ⟨f, r, divided, rfl, same⟩ := divide?_of_parts parts
  obtain ⟨g, more, rfl, rfl, -⟩ := List.map_eq_cons_iff.mp same
  have found : equalityOf? ts = some (.unequal, f, g) := by
    simp [equalityOf?, List.findSome?, divide?_of_one equal, divided]
  rw [equality, found]

/-- The sign of a relation. -/
def relationKind : Relation → Kind
  | .atLeast => .ge
  | .atMost => .le
  | .greater => .gt
  | .less => .lt

theorem relational_of_one (one : ∀ r, (split (relationKind r) 0 ts).2 = []) :
    relational ts = operand ts := by
  have undivided : ∀ r, divide? (relationKind r) ts = none := fun r => divide?_of_one (one r)
  have none : relationOf? ts = none := by
    simp [relationOf?, List.findSome?, show divide? .ge ts = none from undivided .atLeast,
      show divide? .le ts = none from undivided .atMost,
      show divide? .gt ts = none from undivided .greater,
      show divide? .lt ts = none from undivided .less]
  rw [relational, none]

theorem relational_of_parts {relation : Relation}
    (others : ∀ r, r ≠ relation → (split (relationKind r) 0 ts).2 = [])
    (parts : split (relationKind relation) 0 ts = (left, right :: rest)) :
    relational ts = .compare (.relation relation) (operand left) (operand right) := by
  obtain ⟨f, r, divided, rfl, same⟩ := divide?_of_parts parts
  obtain ⟨g, more, rfl, rfl, -⟩ := List.map_eq_cons_iff.mp same
  have found : relationOf? ts = some (relation, f, g) := by
    have none : ∀ q, q ≠ relation → divide? (relationKind q) ts = none :=
      fun q other => divide?_of_one (others q other)
    have atLeast := none .atLeast
    have atMost := none .atMost
    have greater := none .greater
    have less := none .less
    cases relation <;>
      simp_all [relationOf?, List.findSome?, relationKind]
  rw [relational, found]

end Comparison

section Operand

variable {ts inside first second : List Token} {t : Token} {rest : List (List Token)}

theorem operand_of_group (found : group? isGroupOpener ts = some inside) :
    operand ts = disjunction inside := by
  obtain ⟨i, found', rfl⟩ := inside?_of_some found
  obtain ⟨opener, closer, shape, -, -, -⟩ := of_group? found
  have solid : ts.isEmpty = false := by rw [shape]; rfl
  rw [operand, solid, found']
  rfl

theorem properties_eq (ts : List Token) :
    (properties ts).map (fun p => (p.1, p.2.val)) =
      ((split .comma 0 ts).1 :: (split .comma 0 ts).2).filterMap fun part =>
        (cut .colon 0 part).map fun (name, value) => (propertyName name, value) := by
  have each : ∀ {n : Nat} (p : Shorter n), (property? p).map (fun q => (q.1, q.2.val)) =
      (cut .colon 0 p.val).map fun (name, value) => (propertyName name, value) := by
    intro n p
    unfold property? cut?
    split
    · rename_i found
      simp [found, Shorter.widen]
    · rename_i found
      simp [found]
  have values : (parts .comma ts).map (·.val) = (split .comma 0 ts).1 :: (split .comma 0 ts).2 := by
    rw [parts, List.map_map]
    exact List.attach_map_subtype_val _
  rw [properties, List.map_filterMap, ← values, List.filterMap_map]
  simp only [each, Function.comp_def]

theorem operand_of_braces (group : group? isGroupOpener ts = none)
    (found : group? (· == .leftBrace) ts = some inside) :
    operand ts = .object (((split .comma 0 inside).1 :: (split .comma 0 inside).2).filterMap
      fun part => (cut .colon 0 part).map fun (name, value) => (propertyName name, whole value)) := by
  obtain ⟨i, found', rfl⟩ := inside?_of_some found
  obtain ⟨opener, closer, shape, -, -, -⟩ := of_group? found
  have solid : ts.isEmpty = false := by rw [shape]; rfl
  rw [operand, solid, inside?_of_none group, found']
  have values := congrArg (List.map fun p => (p.1, whole p.2)) (properties_eq i.val)
  rw [List.map_map, List.map_filterMap] at values
  simp only [Option.map_map] at values
  exact congrArg Expr.object values

/-- Neither a group nor an object. -/
structure Ungrouped (ts : List Token) : Prop where
  group : group? isGroupOpener ts = none
  braces : group? (· == .leftBrace) ts = none

theorem operand_of_sum (ungrouped : Ungrouped ts)
    (parts : split .plus 0 ts = (first, second :: rest)) :
    operand ts = .concat (operand first :: (second :: rest).map operand) := by
  have solid : ts.isEmpty = false := by
    cases ts with
    | nil => cases parts
    | cons => rfl
  obtain ⟨f, r, divided, rfl, same⟩ := divide?_of_parts parts
  rw [operand, solid, inside?_of_none ungrouped.group, inside?_of_none ungrouped.braces, divided, ← same,
    List.map_map]
  rfl

theorem operand_of_negation (ungrouped : Ungrouped (t :: ts)) (negation : t.kind = .not)
    (one : (split .plus 0 (t :: ts)).2 = []) : operand (t :: ts) = .not (operand ts) := by
  have negated : negated? (t :: ts) = some ⟨ts, Nat.lt_succ_self _⟩ := by simp [negated?, negation]
  rw [operand, inside?_of_none ungrouped.group, inside?_of_none ungrouped.braces, divide?_of_one one,
    negated]
  rfl

theorem negated?_of_other (other : ∀ t ∈ ts.head?, t.kind ≠ .not) : negated? ts = none := by
  cases ts with
  | nil => rfl
  | cons t ts => simp [negated?, other t (by simp)]

theorem operand_of_exist (ungrouped : Ungrouped (ts ++ [t])) (exist : t.kind = .exist)
    (one : (split .plus 0 (ts ++ [t])).2 = []) (other : ∀ u ∈ (ts ++ [t]).head?, u.kind ≠ .not) :
    operand (ts ++ [t]) = .exist (rawText ts) := by
  have solid : (ts ++ [t]).isEmpty = false := by simp
  have last : (ts ++ [t]).getLast?.any (·.kind == .exist) = true := by simp [exist]
  rw [operand, solid, inside?_of_none ungrouped.group, inside?_of_none ungrouped.braces,
    divide?_of_one one, negated?_of_other other, last, List.dropLast_concat]
  rfl

/-- The stage that tokens spell. -/
def stageOf (ts : List Token) : Stage :=
  match stageForm ts with
  | .ready stage => stage
  | .mapping item body => .map item (whole body.val)

theorem operand_of_chain (ungrouped : Ungrouped ts) (one : (split .plus 0 ts).2 = [])
    (other : ∀ u ∈ ts.head?, u.kind ≠ .not) (unasked : ∀ u ∈ ts.getLast?, u.kind ≠ .exist)
    (parts : segments 0 ts = (first, second :: rest)) :
    operand ts = .chain (whole first) ((second :: rest).map stageOf) := by
  have solid : ts.isEmpty = false := by
    cases ts with
    | nil => cases parts
    | cons => rfl
  obtain ⟨f, r, staged, rfl, same⟩ := stages?_of_parts parts
  have last : ts.getLast?.any (·.kind == .exist) = false := by
    cases found : ts.getLast? with
    | none => rfl
    | some u => simp [unasked u found]
  rw [operand, solid, inside?_of_none ungrouped.group, inside?_of_none ungrouped.braces,
    divide?_of_one one, negated?_of_other other, last, staged, ← same, List.map_map]
  refine congrArg (Expr.chain (whole f.val)) (List.map_congr_left fun p _ => ?_)
  rw [Function.comp_apply, stageOf]
  cases stageForm p.val <;> rfl

theorem operand_of_leaf (ungrouped : Ungrouped ts) (solid : ts ≠ [])
    (one : (split .plus 0 ts).2 = []) (other : ∀ u ∈ ts.head?, u.kind ≠ .not)
    (unasked : ∀ u ∈ ts.getLast?, u.kind ≠ .exist) (unstaged : (segments 0 ts).2 = []) :
    operand ts = leaf (raw ts) := by
  have last : ts.getLast?.any (·.kind == .exist) = false := by
    cases found : ts.getLast? with
    | none => rfl
    | some u => simp [unasked u found]
  have solid : ts.isEmpty = false := by simpa using solid
  rw [operand, solid, inside?_of_none ungrouped.group, inside?_of_none ungrouped.braces,
    divide?_of_one one, negated?_of_other other, last, stages?_of_one unstaged]
  rfl

end Operand

/-- The levels of the parser, each tighter than the one before. -/
def readAt : Nat → List Token → Expr
  | 0 => disjunction
  | 1 => conjunction
  | 2 => conditional
  | 3 => equality
  | 4 => relational
  | _ => operand

/-- The rank of what an operator makes. Separators make nothing and stand inside brackets only. -/
def Kind.rank : Kind → Int
  | .comma | .colon | .arrow => -1
  | .or => 0
  | .and => 1
  | .eq | .ne => 3
  | .ge | .le | .gt | .lt => 4
  | .plus => 5
  | .not | .exist => 6
  | .question => 7
  | _ => 8

/-- Tokens that show no operator of a rank below this one. -/
structure Holds (n : Nat) (ts : List Token) : Prop where
  nested : Nested ts
  shown : ∀ k ∈ surface 0 ts, (n : Int) ≤ k.rank
  unmarked : 3 ≤ n → lastThen 0 ts = none

namespace Holds

variable {m n : Nat} {ts : List Token}

theorem hidden {k : Kind} (holds : Holds n ts) (below : k.rank < n) : k ∉ surface 0 ts := by
  intro shown
  have := holds.shown k shown
  omega

theorem mono (holds : Holds n ts) (le : m ≤ n) : Holds m ts where
  nested := holds.nested
  shown k shown := by
    have := holds.shown k shown
    omega
  unmarked three := holds.unmarked (by omega)

theorem undivided {k : Kind} (holds : Holds n ts) (below : k.rank < n) :
    split k 0 ts = (ts, []) := split_of_hidden (holds.hidden below)

theorem readAt_succ (holds : Holds n ts) (below : m < n) : readAt m ts = readAt (m + 1) ts := by
  have one {k : Kind} (rank : k.rank ≤ m) : (split k 0 ts).2 = [] := by
    rw [holds.undivided (by omega)]
  match m with
  | 0 => exact disjunction_of_one (one (by decide))
  | 1 => exact conjunction_of_one (one (by decide))
  | 2 => exact conditional_of_unmarked (holds.unmarked below)
  | 3 => exact equality_of_one (one (by decide)) (one (by decide))
  | 4 => exact relational_of_one fun r => by cases r <;> exact one (by decide)
  | _ + 5 => rfl

/-- All levels up to the rank of what the tokens show read them alike. -/
theorem readAt_eq (holds : Holds n ts) (le : m ≤ n) : readAt m ts = readAt n ts := by
  obtain ⟨k, rfl⟩ := Nat.exists_eq_add_of_le le
  induction k generalizing m with
  | zero => rfl
  | succ k ih =>
    rw [holds.readAt_succ (by omega)]
    have more := @ih (m + 1)
    rw [Nat.add_right_comm] at more
    exact more holds (by omega)

end Holds

section Group

variable {opener closer : Token} {ts inside : List Token}

theorem Kind.rank_of_isCloser {k : Kind} (closing : k.isCloser = true) : k.rank = 8 := by
  cases k <;> first | rfl | cases closing

theorem Kind.rank_of_isOpener {k : Kind} (opening : k.isOpener = true) : k.rank = 8 := by
  cases k <;> first | rfl | cases opening

theorem holds_enclose (opening : opener.kind.isOpener = true)
    (closing : closer.kind.isCloser = true) (inside : Nested ts) :
    Holds 8 (opener :: ts ++ [closer]) where
  nested := inside.enclose opening closing
  shown := by
    intro k shown
    rw [Nested.surface_enclose opening closing inside] at shown
    simp only [List.mem_cons, List.not_mem_nil, or_false] at shown
    rcases shown with rfl | rfl
    · rw [Kind.rank_of_isOpener opening]
      decide
    · rw [Kind.rank_of_isCloser closing]
      decide
  unmarked _ := by
    apply lastThen_of_hidden
    rw [Nested.surface_enclose opening closing inside]
    simp only [List.mem_cons, List.not_mem_nil, or_false, not_or]
    constructor
    · intro same
      rw [← same] at opening
      cases opening
    · intro same
      rw [← same] at closing
      cases closing

theorem isOpener_of_beq {opener : Kind} (opening : opener.isOpener = true) (k : Kind)
    (same : (k == opener) = true) : k.isOpener = true := by
  rw [beq_iff_eq.mp same]
  exact opening

theorem isOpener_of_isGroupOpener {k : Kind} (opening : isGroupOpener k = true) :
    k.isOpener = true := by
  cases k <;> first | rfl | cases opening

/-- Every level reads a group as its inside. -/
theorem readAt_group (opening : isGroupOpener opener.kind = true)
    (closing : closer.kind.isCloser = true) (inside : Nested ts) (n : Nat) :
    readAt n (opener :: ts ++ [closer]) = disjunction ts := by
  have holds := holds_enclose (isOpener_of_isGroupOpener opening) closing inside
  have found := group?_enclose opening closing inside
  rcases Nat.le_total n 8 with le | ge
  · rw [holds.readAt_eq le]
    exact operand_of_group found
  · -- beyond the tightest level there are only copies of it
    match n, ge with
    | _ + 8, _ => exact operand_of_group found

/-- A placeholder around a whole expression is a group like any other. -/
theorem whole_eq (solid : ts ≠ []) : whole ts = disjunction ts := by
  have solid : ts.isEmpty = false := by simpa using solid
  rw [whole, solid]
  cases found : group? (· == .dollarBrace) ts with
  | none =>
    rw [inside?_of_none found]
    rfl
  | some inside =>
    obtain ⟨i, found', rfl⟩ := inside?_of_some found
    obtain ⟨opener, closer, shape, opening, closing, nested⟩ := of_group? found
    have opening : isGroupOpener opener.kind = true := by
      rw [beq_iff_eq] at opening
      rw [opening]
      rfl
    -- where `whole` takes the braces off, the loosest level would do so too
    have read : disjunction ts = disjunction i.val :=
      (congrArg disjunction shape).trans (readAt_group opening closing nested 0)
    rw [found', read]
    rfl

end Group

end Walkthrough.Expression
