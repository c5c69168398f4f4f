import Walkthrough.Proofs.Expression.Levels
import Walkthrough.Proofs.Expression.Lexing

/-! Tokens put together as the parser takes them apart: parts with an operator between them, a
negation, and a condition with its branches. Each says what it shows and which level divides it
into just these parts. -/
namespace Walkthrough.Expression

/-- Parts with a token between each two of them. -/
def joined (op : Token) (first : List Token) (rest : List (List Token)) : List Token :=
  first ++ rest.flatMap (op :: ·)

section Joined

variable {op : Token} {first : List Token} {rest : List (List Token)} {kind : Kind} {m n : Nat}

theorem joined_cons (op : Token) (first second : List Token) (rest : List (List Token)) :
    joined op first (second :: rest) = first ++ op :: joined op second rest := by
  simp [joined]

theorem nested_joined (neutral : op.kind.isNeutral = true)
    (nested : ∀ p ∈ first :: rest, Nested p) : Nested (joined op first rest) := by
  induction rest generalizing first with
  | nil => simpa [joined] using nested
  | cons second rest ih =>
    rw [joined_cons]
    have later := ih fun p inside => nested p (List.mem_cons_of_mem _ inside)
    exact (nested first List.mem_cons_self).append (later.cons neutral)

theorem surface_joined (neutral : op.kind.isNeutral = true)
    (nested : ∀ p ∈ first :: rest, Nested p) {k : Kind} (shown : k ∈ surface 0 (joined op first rest)) :
    k = op.kind ∨ ∃ p ∈ first :: rest, k ∈ surface 0 p := by
  induction rest generalizing first with
  | nil =>
    rw [joined, List.flatMap_nil, List.append_nil] at shown
    exact .inr ⟨first, List.mem_cons_self, shown⟩
  | cons second rest ih =>
    rw [joined_cons, (nested first List.mem_cons_self).surface_append, Nested.surface_cons neutral,
      List.mem_append, List.mem_cons] at shown
    rcases shown with here | rfl | later
    · exact .inr ⟨first, List.mem_cons_self, here⟩
    · exact .inl rfl
    · refine (ih (fun p inside => nested p (List.mem_cons_of_mem _ inside)) later).imp_right ?_
      rintro ⟨p, inside, found⟩
      exact ⟨p, List.mem_cons_of_mem _ inside, found⟩

theorem exposed_of_neutral (neutral : op.kind.isNeutral = true) : exposed 0 op = true := by
  simp only [Kind.isNeutral, Bool.and_eq_true, Bool.not_eq_true'] at neutral
  simp [exposed, neutral]

theorem depthAfter_of_neutral (neutral : op.kind.isNeutral = true) : depthAfter 0 op = 0 := by
  simp only [Kind.isNeutral, Bool.and_eq_true, Bool.not_eq_true'] at neutral
  simp [depthAfter, neutral]

theorem split_joined (neutral : op.kind.isNeutral = true) (nested : ∀ p ∈ first :: rest, Nested p)
    (hidden : ∀ p ∈ first :: rest, op.kind ∉ surface 0 p) :
    split op.kind 0 (joined op first rest) = (first, rest) := by
  induction rest generalizing first with
  | nil =>
    rw [joined, List.flatMap_nil, List.append_nil]
    exact split_of_hidden (hidden first List.mem_cons_self)
  | cons second rest ih =>
    have later := ih (fun p inside => nested p (List.mem_cons_of_mem _ inside))
      (fun p inside => hidden p (List.mem_cons_of_mem _ inside))
    have flat : depthAcross 0 first = 0 := (nested first List.mem_cons_self).depthAcross 0
    rw [joined_cons, split_append (hidden first List.mem_cons_self), flat, split,
      depthAfter_of_neutral neutral, later]
    simp [exposed_of_neutral neutral]

/-- Question marks divide a chain into its base and its stages. -/
theorem segments_joined (question : op.kind = .question) (nested : ∀ p ∈ first :: rest, Nested p)
    (hidden : ∀ p ∈ first :: rest, .question ∉ surface 0 p ∧ .exist ∉ surface 0 p) :
    segments 0 (joined op first rest) = (first, rest) := by
  have neutral : op.kind.isNeutral = true := by rw [question]; rfl
  induction rest generalizing first with
  | nil =>
    rw [joined, List.flatMap_nil, List.append_nil]
    exact segments_of_hidden (hidden first List.mem_cons_self).1 (hidden first List.mem_cons_self).2
  | cons second rest ih =>
    have later := ih (fun p inside => nested p (List.mem_cons_of_mem _ inside))
      (fun p inside => hidden p (List.mem_cons_of_mem _ inside))
    have flat : depthAcross 0 first = 0 := (nested first List.mem_cons_self).depthAcross 0
    have here := hidden first List.mem_cons_self
    rw [joined_cons, segments_append here.1 here.2, flat, segments, depthAfter_of_neutral neutral,
      later]
    simp [exposed_of_neutral neutral, question]

theorem lastThen_cons_eq_none {ts : List Token} (neutral : op.kind.isNeutral = true)
    (plain : isThenMark (op :: ts) = false) (later : lastThen 0 ts = none) :
    lastThen 0 (op :: ts) = none := by
  rw [lastThen, depthAfter_of_neutral neutral, later, plain]
  simp

theorem lastThen_joined (neutral : op.kind.isNeutral = true)
    (apart : op.kind ≠ .word ∧ op.kind ≠ .leftParen)
    (nested : ∀ p ∈ first :: rest, Nested p) (unmarked : ∀ p ∈ first :: rest, lastThen 0 p = none)
    (plain : ∀ p ∈ rest, ∀ more, isThenMark (op :: (p ++ more)) = false) :
    lastThen 0 (joined op first rest) = none := by
  induction rest generalizing first with
  | nil =>
    rw [joined, List.flatMap_nil, List.append_nil]
    exact unmarked first List.mem_cons_self
  | cons second rest ih =>
    have flat : depthAcross 0 first = 0 := (nested first List.mem_cons_self).depthAcross 0
    rw [joined_cons]
    apply lastThen_append_eq_none (unmarked first List.mem_cons_self)
    · rw [flat]
      refine lastThen_cons_eq_none neutral (plain second List.mem_cons_self _) ?_
      exact ih (fun p inside => nested p (List.mem_cons_of_mem _ inside))
        (fun p inside => unmarked p (List.mem_cons_of_mem _ inside))
        (fun p inside => plain p (List.mem_cons_of_mem _ inside))
    · -- a mark across the joint would have `op` for its word or its parenthesis
      intro u first
      cases first
      exact apart

theorem holds_joined (neutral : op.kind.isNeutral = true)
    (apart : op.kind ≠ .word ∧ op.kind ≠ .leftParen) (rank : (n : Int) ≤ op.kind.rank)
    (le : n ≤ m) (parts : ∀ p ∈ first :: rest, Holds m p)
    (plain : 3 ≤ n → ∀ p ∈ rest, ∀ more, isThenMark (op :: (p ++ more)) = false) :
    Holds n (joined op first rest) where
  nested := nested_joined neutral fun p inside => (parts p inside).nested
  shown := by
    intro k shown
    rcases surface_joined neutral (fun p inside => (parts p inside).nested) shown with
      rfl | ⟨p, inside, found⟩
    · exact rank
    · have := (parts p inside).shown k found
      omega
  unmarked three :=
    lastThen_joined neutral apart (fun p inside => (parts p inside).nested)
      (fun p inside => (parts p inside).unmarked (by omega)) (plain three)

theorem isThenMark_of_other {ts : List Token} (other : op.kind ≠ .question) :
    isThenMark (op :: ts) = false := by
  cases marks : isThenMark (op :: ts) with
  | false => rfl
  | true =>
    obtain ⟨t, us, same, question⟩ := isThenMark_question marks
    cases same
    exact absurd question other

/-- A list that shows something besides brackets is no group. -/
theorem ungrouped_of_shown {ts : List Token} {k : Kind} (shown : k ∈ surface 0 ts)
    (neutral : k.isNeutral = true) : Ungrouped ts := by
  have none : ∀ p : Kind → Bool, (∀ k, p k = true → k.isOpener = true) → group? p ts = none := by
    intro p opens
    cases found : group? p ts with
    | none => rfl
    | some inside =>
      obtain ⟨opener, closer, rfl, opening, closing, nested⟩ := of_group? found
      rw [Nested.surface_enclose (opens _ opening) closing nested] at shown
      simp only [Kind.isNeutral, Bool.and_eq_true, Bool.not_eq_true'] at neutral
      simp only [List.mem_cons, List.not_mem_nil, or_false] at shown
      rcases shown with rfl | rfl
      · cases neutral.1.symm.trans (opens _ opening)
      · cases neutral.2.symm.trans closing
  refine ⟨none _ fun k => isOpener_of_isGroupOpener, none _ fun k brace => ?_⟩
  rw [beq_iff_eq.mp brace]
  rfl

end Joined

section Ends

variable {ts : List Token} {t : Token} {k : Kind}

theorem head_shown (nested : Nested (t :: ts)) : t.kind ∈ surface 0 (t :: ts) := by
  have here : exposed 0 t = true := by
    unfold Nested at nested
    simp only [height?] at nested
    split at nested
    · rename_i opening
      simp [exposed, Kind.isCloser_of_isOpener _ opening]
    · split at nested
      · cases nested
      · rename_i closing
        simp [exposed, closing]
  simp [surface, here]

theorem last_shown (nested : Nested (ts ++ [t])) : t.kind ∈ surface 0 (ts ++ [t]) := by
  unfold Nested at nested
  rw [height?_append] at nested
  obtain ⟨n, front, last⟩ := Option.bind_eq_some_iff.mp nested
  have depth : depthAcross 0 ts = n := depthAcross_of_height front
  rw [surface_append, depth]
  apply List.mem_append_right
  simp only [height?] at last
  split at last
  · cases last
  · split at last
    · rename_i closing
      cases n with
      | zero => cases last
      | succ n =>
        cases last
        simp [surface, exposed, closing]
    · rename_i closing
      cases last
      simp [surface, exposed, closing]

theorem head_ne (nested : Nested ts) (hidden : k ∉ surface 0 ts) : ∀ t ∈ ts.head?, t.kind ≠ k := by
  rintro t head rfl
  cases ts with
  | nil => cases head
  | cons u ts =>
    cases head
    exact hidden (head_shown nested)

theorem last_ne (nested : Nested ts) (hidden : k ∉ surface 0 ts) :
    ∀ t ∈ ts.getLast?, t.kind ≠ k := by
  rintro t last rfl
  obtain ⟨front, rfl⟩ := List.getLast?_eq_some_iff.mp last
  exact hidden (last_shown nested)

end Ends

section Readings

variable {op : Token} {first second left right : List Token} {rest : List (List Token)}

theorem readAt_either (kind : op.kind = .or) (parts : ∀ p ∈ first :: second :: rest, Holds 1 p) :
    readAt 0 (joined op first (second :: rest)) =
      .either (readAt 1 first) ((second :: rest).map (readAt 1)) := by
  apply disjunction_of_parts
  rw [← kind]
  exact split_joined (by rw [kind]; rfl) (fun p inside => (parts p inside).nested)
    fun p inside => (parts p inside).hidden (by rw [kind]; decide)

theorem readAt_both (kind : op.kind = .and) (parts : ∀ p ∈ first :: second :: rest, Holds 2 p) :
    readAt 1 (joined op first (second :: rest)) =
      .both (readAt 2 first) ((second :: rest).map (readAt 2)) := by
  apply conjunction_of_parts
  rw [← kind]
  exact split_joined (by rw [kind]; rfl) (fun p inside => (parts p inside).nested)
    fun p inside => (parts p inside).hidden (by rw [kind]; decide)

theorem readAt_concat (kind : op.kind = .plus)
    (parts : ∀ p ∈ first :: second :: rest, Holds 6 p) :
    readAt 5 (joined op first (second :: rest)) =
      .concat (readAt 6 first :: (second :: rest).map (readAt 6)) := by
  have neutral : op.kind.isNeutral = true := by rw [kind]; rfl
  have nested : ∀ p ∈ first :: second :: rest, Nested p := fun p inside => (parts p inside).nested
  have shown : op.kind ∈ surface 0 (joined op first (second :: rest)) := by
    rw [joined_cons, (nested first List.mem_cons_self).surface_append, Nested.surface_cons neutral]
    simp
  apply operand_of_sum (ungrouped_of_shown shown neutral)
  rw [← kind]
  exact split_joined neutral nested fun p inside =>
    (parts p inside).hidden (by rw [kind]; decide)

theorem undivided_joined {k : Kind} {n : Nat} (neutral : op.kind.isNeutral = true)
    (other : k ≠ op.kind) (below : k.rank < n) (parts : ∀ p ∈ first :: rest, Holds n p) :
    (split k 0 (joined op first rest)).2 = [] := by
  rw [split_of_hidden]
  intro shown
  rcases surface_joined neutral (fun p inside => (parts p inside).nested) shown with
    same | ⟨p, inside, found⟩
  · exact other same
  · exact (parts p inside).hidden below found

end Readings

def Comparison.kind : Comparison → Kind
  | .equal => .eq
  | .unequal => .ne
  | .relation r => relationKind r

def Comparison.rank : Comparison → Nat
  | .equal | .unequal => 3
  | .relation _ => 4

theorem Comparison.kind_rank (c : Comparison) : c.kind.rank = c.rank := by
  cases c with
  | equal | unequal => rfl
  | relation r => cases r <;> rfl

theorem Comparison.kind_spelled (c : Comparison) : c.kind.sign ≠ [] := by
  cases c with
  | equal | unequal => decide
  | relation r => cases r <;> decide

theorem Comparison.kind_other (c : Comparison) :
    c.kind ≠ .question ∧ c.kind ≠ .word ∧ c.kind ≠ .leftParen := by
  cases c with
  | equal | unequal => decide
  | relation r => cases r <;> decide

theorem Comparison.kind_neutral (c : Comparison) : c.kind.isNeutral = true := by
  cases c with
  | equal | unequal => rfl
  | relation r => cases r <;> rfl

theorem readAt_compare (c : Comparison) {op : Token} {left right : List Token}
    (kind : op.kind = c.kind) (parts : ∀ p ∈ [left, right], Holds (c.rank + 1) p) :
    readAt c.rank (joined op left [right]) =
      .compare c (readAt (c.rank + 1) left) (readAt (c.rank + 1) right) := by
  have neutral : op.kind.isNeutral = true := kind ▸ c.kind_neutral
  have divided : split c.kind 0 (joined op left [right]) = (left, [right]) := by
    rw [← kind]
    refine split_joined neutral (fun p inside => (parts p inside).nested)
      fun p inside => (parts p inside).hidden ?_
    rw [kind, c.kind_rank]
    omega
  have other {k : Kind} (differs : k ≠ c.kind) (below : k.rank < (c.rank + 1 : Nat)) :
      (split k 0 (joined op left [right])).2 = [] :=
    undivided_joined neutral (kind ▸ differs) below parts
  cases c with
  | equal => exact equality_of_equal divided
  | unequal => exact equality_of_unequal (other (k := .eq) (by decide) (by decide)) divided
  | relation r =>
    refine relational_of_parts (fun q (differs : q ≠ r) => ?_) divided
    cases r <;> cases q <;> first
      | exact absurd rfl differs
      | exact other (by decide) (by decide)

section Negation

variable {t : Token} {ts : List Token}

theorem holds_not (negation : t.kind = .not) (operand : Holds 6 ts) : Holds 6 (t :: ts) where
  nested := operand.nested.cons (by rw [negation]; rfl)
  shown := by
    intro k shown
    rw [Nested.surface_cons (by rw [negation]; rfl), List.mem_cons] at shown
    rcases shown with rfl | later
    · rw [negation]
      decide
    · exact operand.shown k later
  unmarked three := by
    refine lastThen_cons_eq_none (by rw [negation]; rfl) ?_ (operand.unmarked three)
    exact isThenMark_of_other (by rw [negation]; decide)

theorem readAt_not (negation : t.kind = .not) (operand : Holds 6 ts) :
    readAt 6 (t :: ts) = .not (readAt 6 ts) := by
  have holds := holds_not negation operand
  have shown : t.kind ∈ surface 0 (t :: ts) := head_shown holds.nested
  refine operand_of_negation (ungrouped_of_shown shown (by rw [negation]; rfl)) negation ?_
  rw [holds.undivided (by decide)]

end Negation

/-- A condition with its branches, called with nothing in between. -/
def chosen (condition yes no : List Token) : List Token :=
  condition ++ sign .question [] :: ⟨.word, [], "then".toList⟩ ::
    (sign .leftParen [] :: (yes ++ sign .comma [] :: no) ++ [sign .rightParen []])

section Choice

variable {condition yes no : List Token}

theorem nested_branches (yes_ : Nested yes) (no_ : Nested no) :
    Nested (yes ++ sign .comma [] :: no) := yes_.append (no_.cons rfl)

theorem holds_chosen (holds : Holds 2 condition) (yes_ : Nested yes) (no_ : Nested no) :
    Holds 2 (chosen condition yes no) := by
  have call : Nested (sign .leftParen [] :: (yes ++ sign .comma [] :: no) ++ [sign .rightParen []]) :=
    (nested_branches yes_ no_).enclose rfl rfl
  refine ⟨?_, ?_, fun three => absurd three (by decide)⟩
  · exact holds.nested.append (Nested.cons rfl (Nested.cons rfl call))
  · intro k shown
    rw [chosen, holds.nested.surface_append, Nested.surface_cons rfl, Nested.surface_cons rfl,
      Nested.surface_enclose rfl rfl (nested_branches yes_ no_), List.mem_append] at shown
    rcases shown with here | later
    · exact holds.shown k here
    · simp only [sign_kind, List.mem_cons, List.not_mem_nil, or_false] at later
      rcases later with rfl | rfl | rfl | rfl <;> decide

theorem readAt_chosen (solid : condition ≠ []) (holds : Holds 2 condition) (yes_ : Holds 2 yes)
    (no_ : Holds 2 no) :
    readAt 2 (chosen condition yes no) =
      .choose (readAt 2 condition) (readAt 2 yes) (readAt 2 no) := by
  have inside := nested_branches yes_.nested no_.nested
  have call : surface 0 (sign .leftParen [] :: (yes ++ sign .comma [] :: no) ++
      [sign .rightParen []]) = [.leftParen, .rightParen] := Nested.surface_enclose rfl rfl inside
  have flat : depthAcross 0 condition = 0 := holds.nested.depthAcross 0
  have mark : lastThen 0 (sign .question [] :: ⟨.word, [], "then".toList⟩ ::
      (sign .leftParen [] :: (yes ++ sign .comma [] :: no) ++ [sign .rightParen []])) =
        some ([], (yes ++ sign .comma [] :: no) ++ [sign .rightParen []]) := by
    rw [lastThen, depthAfter_of_neutral rfl, lastThen_of_hidden, exposed_of_neutral rfl]
    · simp [isThenMark]
    · rw [Nested.surface_cons rfl, call]
      simp
  have closed : enclosed 0 ((yes ++ sign .comma [] :: no) ++ [sign .rightParen []]) =
      some (yes ++ sign .comma [] :: no, []) := enclosed_append inside rfl
  have branches : split .comma 0 (yes ++ sign .comma [] :: no) = (yes, [no]) := by
    have nested : ∀ p ∈ [yes, no], Nested p := by simpa using ⟨yes_.nested, no_.nested⟩
    have hidden : ∀ p ∈ [yes, no], .comma ∉ surface 0 p := by
      simpa using ⟨yes_.hidden (k := .comma) (by decide), no_.hidden (k := .comma) (by decide)⟩
    have divided : split (sign .comma []).kind 0 (joined (sign .comma []) yes [no]) = (yes, [no]) :=
      split_joined rfl nested hidden
    simpa [joined] using divided
  have marked := lastThen_append (flat.symm ▸ mark)
  rw [List.append_nil] at marked
  rw [holds.readAt_eq (m := 0) (by decide) |>.symm]
  exact conditional_of_marked marked solid closed branches

theorem legible_chosen {rest : List Char} (condition_ : ∀ more, Legible condition ('?' :: more))
    (yes_ : ∀ more, Legible yes (',' :: more)) (no_ : ∀ more, Legible no (')' :: more)) :
    Legible (chosen condition yes no) rest := by
  have inside : Legible (yes ++ sign .comma [] :: no) (')' :: rest) :=
    Legible.append (yes_ _) (Legible.cons rfl (by decide) rfl (no_ rest))
  have call : Legible (sign .leftParen [] :: (yes ++ sign .comma [] :: no) ++
      [sign .rightParen []]) rest :=
    Legible.cons rfl (by decide) rfl (inside.append (Legible.cons rfl (by decide) rfl trivial))
  have word : Token.Heads ⟨.word, [], "then".toList⟩ (textBehind (sign .leftParen [] ::
      (yes ++ sign .comma [] :: no) ++ [sign .rightParen []]) ++ rest) :=
    ⟨rfl, 't', "hen".toList, rfl, by decide, extent?_eq_some.mpr (.word rfl rfl rfl)⟩
  have apart : ∀ c, pairKind? c (some 't') = none := by
    intro c
    unfold pairKind?
    split <;> simp_all
  have mark : Legible (sign .question [] :: ⟨.word, [], "then".toList⟩ ::
      (sign .leftParen [] :: (yes ++ sign .comma [] :: no) ++ [sign .rightParen []])) rest :=
    ⟨heads_sign rfl (by decide) fun _ c _ => apart c, word, call⟩
  exact Legible.append (condition_ _) mark

end Choice

section Chain

variable {op : Token} {base second : List Token} {stages : List (List Token)}

theorem readAt_chain (kind : op.kind = .question) (solid : base ≠ [])
    (parts : ∀ p ∈ base :: second :: stages, Holds 8 p)
    (holds : Holds 7 (joined op base (second :: stages))) :
    readAt 7 (joined op base (second :: stages)) =
      .chain (readAt 0 base) ((second :: stages).map stageOf) := by
  have neutral : op.kind.isNeutral = true := by rw [kind]; rfl
  have nested : ∀ p ∈ base :: second :: stages, Nested p := fun p inside => (parts p inside).nested
  have shown : op.kind ∈ surface 0 (joined op base (second :: stages)) := by
    rw [joined_cons, (nested base List.mem_cons_self).surface_append, Nested.surface_cons neutral]
    simp
  have whole_ : whole base = readAt 0 base := whole_eq solid
  rw [← whole_]
  refine operand_of_chain (ungrouped_of_shown shown neutral) ?_
    (head_ne holds.nested (holds.hidden (by decide)))
    (last_ne holds.nested (holds.hidden (by decide))) ?_
  · rw [holds.undivided (by decide)]
  · exact segments_joined kind nested fun p inside =>
      ⟨(parts p inside).hidden (by decide), (parts p inside).hidden (by decide)⟩

end Chain

section Leaf

variable {t u : Token}

theorem holds_leaf (kind : t.kind = .word ∨ t.kind = .string) : Holds 8 [t] := by
  have neutral : t.kind.isNeutral = true := by rcases kind with same | same <;> rw [same] <;> rfl
  have surface_ : surface 0 [t] = [t.kind] := Nested.surface_cons neutral
  refine ⟨Nested.nil.cons neutral, fun k shown => ?_, fun _ => lastThen_of_hidden ?_⟩
  · rw [surface_, List.mem_singleton] at shown
    rw [shown]
    rcases kind with same | same <;> rw [same] <;> decide
  · rw [surface_, List.mem_singleton]
    rcases kind with same | same <;> rw [same] <;> decide

theorem readAt_leaf (kind : t.kind = .word ∨ t.kind = .string) : readAt 8 [t] = leaf t.lexeme := by
  have holds := holds_leaf kind
  have neutral : t.kind.isNeutral = true := by rcases kind with same | same <;> rw [same] <;> rfl
  have read := operand_of_leaf (ungrouped_of_shown (head_shown holds.nested) neutral)
    (List.cons_ne_nil _ _) (by rw [holds.undivided (by decide)])
    (head_ne holds.nested (holds.hidden (by decide)))
    (last_ne holds.nested (holds.hidden (by decide)))
    (by rw [segments_of_hidden (holds.hidden (by decide)) (holds.hidden (by decide))])
  rw [show readAt 8 [t] = operand [t] from rfl, read]
  simp [raw]

theorem disjunction_leaf (kind : t.kind = .word ∨ t.kind = .string) :
    disjunction [t] = leaf t.lexeme :=
  ((holds_leaf kind).readAt_eq (Nat.zero_le 8)).trans (readAt_leaf kind)

theorem holds_exist (kind : t.kind = .word) (exist : u.kind = .exist) : Holds 6 [t, u] := by
  have surface_ : surface 0 [t, u] = [.word, .exist] := by
    rw [Nested.surface_cons (by rw [kind]; rfl), Nested.surface_cons (by rw [exist]; rfl), kind, exist]
    rfl
  refine ⟨(Nested.nil.cons (by rw [exist]; rfl)).cons (by rw [kind]; rfl), fun k shown => ?_,
    fun _ => lastThen_of_hidden ?_⟩
  · rw [surface_] at shown
    simp only [List.mem_cons, List.not_mem_nil, or_false] at shown
    rcases shown with rfl | rfl <;> decide
  · rw [surface_]
    decide

theorem readAt_exist (kind : t.kind = .word) (exist : u.kind = .exist) :
    readAt 6 [t, u] = .exist (String.ofList t.lexeme) := by
  have holds := holds_exist kind exist
  have ungrouped := ungrouped_of_shown (head_shown holds.nested) (by rw [kind]; rfl)
  have read : operand ([t] ++ [u]) = .exist (rawText [t]) :=
    operand_of_exist ungrouped exist (by rw [List.singleton_append, holds.undivided (by decide)])
      (by simp [kind])
  rw [show readAt 6 [t, u] = operand ([t] ++ [u]) from rfl, read]
  simp [rawText, raw]

end Leaf

end Walkthrough.Expression
