import Walkthrough.Proofs.Expression.Compound
import Walkthrough.Proofs.Number.Limit
import Walkthrough.Proofs.Span.Group

/-! The parser never looks outside of its tokens. A rule, whose calls are answered with what the tokens
of their spans mean, makes of its own span what these tokens mean, and hands on nothing but spans that
are shorter or read by a tighter rule; so the calls come to an end, whatever the tokens are. A numeral
with too many digits ends them before. -/
namespace Walkthrough.Expression.Span

/-- A token is looked at where there is one, a text is read that stands in the whole one, and a span is
handed on that lies among the tokens and is shorter or read by a tighter rule. -/
def Act.Proper (ts : List Token) (tail : List Char) : Act → Prop
  | .look place => 0 ≤ place ∧ place < ts.length
  | .read cs => cs <:+: textBehind ts ++ tail
  | .hand caller callee =>
    (0 ≤ callee.lo ∧ callee.lo ≤ callee.hi ∧ callee.hi ≤ ts.length) ∧ callee.Below caller

/-- Nothing improper is done. What is made is given; it is not made just where one of the texts that are
read is a numeral with too many digits. -/
structure Traced.Makes {α : Type} (ts : List Token) (tail : List Char) (p : Traced α) (a : α)
    (legible : Bool) : Prop where
  acts : ∀ act ∈ p.acts, act.Proper ts tail
  result : p.result = if legible then .ok a else .error .tooManyDigits
  reads : legible = true ↔ ∀ cs, .read cs ∈ p.acts → Numeral.tooLong cs = false

abbrev Traced.MakesTree (ts : List Token) (tail : List Char) (p : Traced Expr) (e : Expr) : Prop :=
  p.Makes ts tail e e.readable

abbrev Traced.MakesStage (ts : List Token) (tail : List Char) (p : Traced Stage) (s : Stage) : Prop :=
  p.Makes ts tail s s.readable

section Making

variable {α β : Type} {ts : List Token} {tail cs : List Char} {p : Traced α} {a : α} {b : β}
  {l m : Bool} {fits : α → Prop} {f : α → Traced β}

theorem Act.Scans.proper {act : Act} (scans : act.Scans ts.length) : act.Proper ts tail := by
  cases act with
  | look place => exact scans
  | read cs => exact scans.elim
  | hand caller callee => exact scans.elim

theorem Traced.Makes.pure : (Pure.pure a : Traced α).Makes ts tail a true :=
  ⟨List.forall_mem_nil _, rfl, iff_of_true rfl fun _ listed => absurd listed List.not_mem_nil⟩

/-- Behind a scan, what is made is what the rest makes. -/
theorem Traced.Sound.makes (first : p.Sound ts.length fits)
    (later : ∀ a, fits a → (f a).Makes ts tail b l) : (p >>= f).Makes ts tail b l := by
  obtain ⟨scans, a, result, fit⟩ := first
  obtain ⟨acts, made, reads⟩ := later a fit
  have shape : p >>= f = ⟨p.acts ++ (f a).acts, (f a).result⟩ := by
    simp only [Bind.bind, result]
  have silent : ∀ cs, .read cs ∉ p.acts := fun cs listed => scans _ listed
  rw [shape]
  refine ⟨List.forall_mem_append.mpr ⟨fun act listed => (scans act listed).proper, acts⟩, made, ?_⟩
  simpa only [List.mem_append, silent, false_or] using reads

theorem Traced.Sound.makesNext (first : p.Sound ts.length (· = a))
    (later : (f a).Makes ts tail b l) : (p >>= f).Makes ts tail b l :=
  first.makes fun _ same => same ▸ later

/-- Where the first part is not made, the second one is never begun. -/
theorem Traced.Makes.next (first : p.Makes ts tail a l) (later : (f a).Makes ts tail b m) :
    (p >>= f).Makes ts tail b (l && m) := by
  obtain ⟨acts, made, reads⟩ := first
  cases l with
  | false =>
    have shape : p >>= f = ⟨p.acts, .error .tooManyDigits⟩ := by
      simp only [Bind.bind, made, Bool.false_eq_true, ↓reduceIte]
    rw [shape]
    exact ⟨acts, rfl, reads⟩
  | true =>
    obtain ⟨acts', made', reads'⟩ := later
    have shape : p >>= f = ⟨p.acts ++ (f a).acts, (f a).result⟩ := by
      simp only [Bind.bind, made, ↓reduceIte]
    rw [shape]
    refine ⟨List.forall_mem_append.mpr ⟨acts, acts'⟩, made', ?_⟩
    have legible := reads.mp rfl
    simp only [List.mem_append, or_imp, forall_and, Bool.true_and, reads', iff_and_self]
    exact fun _ => legible

theorem Traced.Makes.congr {a' : α} (makes : p.Makes ts tail a l) (tree : a = a') (same : l = m) :
    p.Makes ts tail a' m := by
  subst tree same
  exact makes

theorem Traced.Makes.returns {f : α → β} (makes : p.Makes ts tail a l) :
    (p >>= fun x => Pure.pure (f x)).Makes ts tail (f a) l := by
  refine (makes.next ?_).congr rfl (Bool.and_true l)
  exact .pure

/-- What reads each of some spans reads all of them. -/
theorem SpanAll.mapM {f : Int × Int → Traced α} {g : List Token → α} {legible : List Token → Bool}
    {xs : List (Int × Int)} {zs : List (List Token)} (all : SpanAll ts xs zs)
    (each : ∀ x, ∀ z ∈ zs, Spans ts x.1 x.2 z → (f x).Makes ts tail (g z) (legible z)) :
    (xs.mapM f).Makes ts tail (zs.map g) (zs.all legible) := by
  induction all with
  | nil => exact .pure
  | cons here _ ih =>
    rw [List.mapM_cons]
    exact (each _ _ List.mem_cons_self here).next
      (ih fun x z later => each x z (List.mem_cons_of_mem _ later)).returns

end Making

theorem not_tooLong_of_unquoted {cs inner : List Char} (quoted : unquoted? cs = some inner) :
    Numeral.tooLong cs = false := by
  match cs with
  | [] | [_] => cases quoted
  | c :: d :: cs =>
    have mark : isQuote c = true := by
      by_contra plain
      simp [unquoted?, plain] at quoted
    refine Numeral.not_tooLong_of_mem List.mem_cons_self ?_
    rw [isQuote, Bool.or_eq_true, beq_iff_eq, beq_iff_eq] at mark
    rcases mark with rfl | rfl <;> decide

theorem leaf_readable (cs : List Char) : (leaf cs).readable = !Numeral.tooLong cs := by
  unfold leaf
  cases quoted : unquoted? cs with
  | some inner =>
    rw [not_tooLong_of_unquoted quoted]
    rfl
  | none =>
    cases read : Numeral.parse? cs with
    | error failure =>
      rw [(Numeral.parse?_eq_error.mp read).2]
      rfl
    | ok number =>
      rw [(Numeral.parse?_eq_ok.mp read).1]
      cases number with
      | some n => rfl
      | none => split_ifs <;> rfl

theorem Spans.raw_infix {ts us : List Token} {tail : List Char} {lo hi : Int}
    (spans : Spans ts lo hi us) : raw us <:+: textBehind ts ++ tail := by
  obtain ⟨front, ⟨back, rfl⟩, -, -⟩ := spans
  cases us with
  | nil => exact List.nil_infix
  | cons t us =>
    refine ⟨textBehind front ++ t.gap, textBehind back ++ tail, ?_⟩
    simp [textBehind_append, raw]

theorem readLeaf_makes {ts us : List Token} {tail : List Char} {lo hi : Int}
    (spans : Spans ts lo hi us) : (readLeaf (raw us)).MakesTree ts tail (leaf (raw us)) where
  acts := List.forall_mem_singleton.mpr spans.raw_infix
  result := rfl
  reads := by
    simp only [readLeaf, List.mem_singleton, Act.read.injEq, forall_eq, leaf_readable,
      Bool.not_eq_true_eq_eq_false]

def propertyOf (part : List Token) : Option (String × Expr) :=
  (cut .colon 0 part).map fun (name, value) => (propertyName name, whole value)

def treeOf : (rule : Rule) → List Token → rule.Result
  | .whole, us => whole us
  | .disjunction, us => disjunction us
  | .conjunction, us => conjunction us
  | .conditional, us => conditional us
  | .equality, us => equality us
  | .relational, us => relational us
  | .operand, us => operand us
  | .object, us => .object ((pieces .comma us).filterMap propertyOf)
  | .chain, us => .chain (whole (segments 0 us).1) ((segments 0 us).2.map stageOf)
  | .stage, us => stageOf us

def Rule.Result.readable : {rule : Rule} → rule.Result → Bool
  | .stage, s => Stage.readable s
  | .whole, e | .disjunction, e | .conjunction, e | .conditional, e | .equality, e | .relational, e
  | .operand, e | .object, e | .chain, e => Expr.readable e

/-- A chain is read where there is a stage; all other rules read any tokens. -/
def Fits (rule : Rule) (us : List Token) : Prop := rule = .chain → (segments 0 us).2 ≠ []

theorem Fits.of_ne {rule : Rule} {us : List Token} (other : rule ≠ .chain) : Fits rule us :=
  fun chain => absurd chain other

/-- Calls below this one are answered with what their tokens mean. -/
def Answers (ts : List Token) (tail : List Char) (caller : Call)
    (go : (c : Call) → Traced c.rule.Result) : Prop :=
  ∀ callee us, callee.Below caller → Spans ts callee.lo callee.hi us → Fits callee.rule us →
    (go callee).Makes ts tail (treeOf callee.rule us) (treeOf callee.rule us).readable

section Levels

variable {ts us vs : List Token} {tail : List Char} {lo hi a b : Int} {caller : Call}
  {go : (c : Call) → Traced c.rule.Result}

theorem Answers.shorter (answers : Answers ts tail caller go) (spans : Spans ts caller.lo caller.hi us)
    (rule : Rule) (other : rule ≠ .chain) (inner : Spans ts a b vs) (fewer : vs.length < us.length) :
    (go ⟨rule, a, b⟩).Makes ts tail (treeOf rule vs) (treeOf rule vs).readable := by
  refine answers ⟨rule, a, b⟩ vs (.inl ?_) inner (.of_ne other)
  rw [spans.length, inner.length]
  omega

theorem Answers.tighter (answers : Answers ts tail caller go) (spans : Spans ts caller.lo caller.hi us)
    (rule : Rule) (fits : Fits rule us) (tight : caller.rule.tightness < rule.tightness) :
    (go ⟨rule, caller.lo, caller.hi⟩).Makes ts tail (treeOf rule us) (treeOf rule us).readable :=
  answers ⟨rule, caller.lo, caller.hi⟩ us (.inr ⟨rfl, rfl, tight⟩) spans fits

theorem allReadable_map {α : Type} (f : α → Expr) (xs : List α) :
    allReadable (xs.map f) = xs.all fun x => (f x).readable := by
  rw [allReadable_eq_all, List.all_map]
  rfl

theorem readOperands_makes (next : Int → Int → Traced Expr) (tree : List Token → Expr) (kind : Kind)
    (make : Expr → List Expr → Expr)
    (readable : ∀ x xs, (make x xs).readable = (x.readable && allReadable xs))
    (spans : Spans ts lo hi us) (same : (next lo hi).MakesTree ts tail (tree us))
    (parts : ∀ a b vs, vs.length < us.length → Spans ts a b vs →
      (next a b).MakesTree ts tail (tree vs)) :
    (readOperands (sourceOf ts tail) next lo hi kind make).MakesTree ts tail
      (match split kind 0 us with
        | (_, []) => tree us
        | (first, second :: rest) => make (tree first) ((second :: rest).map tree)) := by
  refine (divided_sound kind spans).makes ?_
  rintro ⟨first, rest⟩ ⟨here, others⟩
  rcases divided : split kind 0 us with ⟨p, ps⟩
  rw [divided] at here others
  cases others with
  | nil => exact same
  | cons second others =>
    have several : (split kind 0 us).2 ≠ [] := by simp [divided]
    have fewer : ∀ q ∈ p :: _ :: _, q.length < us.length := fun q listed =>
      length_lt_of_mem_split (by rwa [divided]) several
    have all : SpanAll ts (_ :: _) (_ :: _) := .cons second others
    refine ((parts _ _ _ (fewer _ List.mem_cons_self) here).next
      (all.mapM (g := tree) fun x q listed stands =>
        parts _ _ _ (fewer _ (List.mem_cons_of_mem _ listed)) stands).returns).congr rfl ?_
    rw [readable, allReadable_map]

theorem readSides_makes (next : Int → Int → Traced Expr) (tree : List Token → Expr) {α : Type}
    (operators : List (Kind × α)) (comparison : α → Comparison) (spans : Spans ts lo hi us)
    (same : (next lo hi).MakesTree ts tail (tree us))
    (parts : ∀ a b vs, vs.length < us.length → Spans ts a b vs →
      (next a b).MakesTree ts tail (tree vs)) :
    (readSides (sourceOf ts tail) next lo hi operators comparison).MakesTree ts tail
      ((sidesOf? us operators).elim (tree us) fun (x, left, right) =>
        .compare (comparison x) (tree left.val) (tree right.val)) := by
  refine (sides_sound operators spans).makes fun found related => ?_
  generalize sidesOf? us operators = given at related
  cases related with
  | none => exact same
  | @some found given sided =>
    obtain ⟨same, left, right⟩ := sided
    refine ((parts _ _ _ given.2.1.property left).next
      (parts _ _ _ given.2.2.property right).returns).congr ?_ rfl
    rw [same]
    rfl

end Levels

section Rules

variable {ts us : List Token} {tail : List Char} {lo hi : Int}
  {go : (c : Call) → Traced c.rule.Result}

theorem Spans.empty (spans : Spans ts lo hi us) : hi ≤ lo ↔ us = [] := by
  have count := spans.length
  constructor
  · intro empty
    exact List.eq_nil_of_length_eq_zero (by omega)
  · rintro rfl
    simp only [List.length_nil, Int.natCast_zero] at count
    omega

theorem readWhole_makes (spans : Spans ts lo hi us) (answers : Answers ts tail ⟨.whole, lo, hi⟩ go) :
    (readWhole (sourceOf ts tail) go lo hi).MakesTree ts tail (whole us) := by
  rw [readWhole]
  split
  · rename_i empty
    cases spans.empty.mp empty
    rw [whole]
    exact .pure
  · rename_i solid
    refine (isGroup_sound (isOpener_of_beq rfl) spans).makesNext ?_
    rw [whole_eq (mt spans.empty.mpr solid)]
    cases found : group? (· == .dollarBrace) us with
    | none => exact answers.tighter spans .disjunction (.of_ne (by decide)) Nat.zero_lt_one
    | some inside =>
      obtain ⟨opener, closer, rfl, opening, closing, nested⟩ := of_group? found
      have same : disjunction (opener :: inside ++ [closer]) = disjunction inside := by
        refine readAt_group ?_ closing nested 0
        rw [isGroupOpener, opening, Bool.or_true]
      rw [same]
      exact answers.shorter spans .disjunction (by decide) (spans.within_group found)
        (group?_length found)

theorem readDisjunction_makes (spans : Spans ts lo hi us)
    (answers : Answers ts tail ⟨.disjunction, lo, hi⟩ go) :
    (readOperands (sourceOf ts tail) (fun a b => go ⟨.conjunction, a, b⟩) lo hi .or .either).MakesTree
      ts tail (disjunction us) := by
  have makes := readOperands_makes (fun a b => go ⟨.conjunction, a, b⟩) conjunction
    .or .either (fun _ _ => rfl) spans
    (answers.tighter spans .conjunction (.of_ne (by decide)) (Nat.lt_succ_self 1))
    fun a b vs fewer inner => answers.shorter spans .conjunction (by decide) inner fewer
  rcases parts : split .or 0 us with ⟨first, _ | ⟨second, rest⟩⟩
  · rwa [parts, ← disjunction_of_one (by rw [parts])] at makes
  · rw [disjunction_of_parts parts]
    rwa [parts] at makes

theorem readConjunction_makes (spans : Spans ts lo hi us)
    (answers : Answers ts tail ⟨.conjunction, lo, hi⟩ go) :
    (readOperands (sourceOf ts tail) (fun a b => go ⟨.conditional, a, b⟩) lo hi .and .both).MakesTree
      ts tail (conjunction us) := by
  have makes := readOperands_makes (fun a b => go ⟨.conditional, a, b⟩) conditional
    .and .both (fun _ _ => rfl) spans
    (answers.tighter spans .conditional (.of_ne (by decide)) (Nat.lt_succ_self 2))
    fun a b vs fewer inner => answers.shorter spans .conditional (by decide) inner fewer
  rcases parts : split .and 0 us with ⟨first, _ | ⟨second, rest⟩⟩
  · rwa [parts, ← conjunction_of_one (by rw [parts])] at makes
  · rw [conjunction_of_parts parts]
    rwa [parts] at makes

theorem readConditional_makes (spans : Spans ts lo hi us)
    (answers : Answers ts tail ⟨.conditional, lo, hi⟩ go) :
    (readConditional (sourceOf ts tail) go lo hi).MakesTree ts tail (conditional us) := by
  refine (branches_sound spans).makes fun found related => ?_
  rw [conditional]
  generalize conditional? us = given at related
  cases related with
  | none => exact answers.tighter spans .equality (.of_ne (by decide)) (Nat.lt_succ_self 3)
  | @some found given branched =>
    obtain ⟨condition, yes, no⟩ := branched
    refine ((answers.shorter spans .disjunction (by decide) condition given.1.property).next
      ((answers.shorter spans .conditional (by decide) yes given.2.1.property).next
        (answers.shorter spans .conditional (by decide) no given.2.2.property).returns)).congr rfl ?_
    exact (Bool.and_assoc _ _ _).symm

theorem readEquality_makes (spans : Spans ts lo hi us) (answers : Answers ts tail ⟨.equality, lo, hi⟩ go) :
    (readSides (sourceOf ts tail) (fun a b => go ⟨.relational, a, b⟩) lo hi
      [(.eq, Comparison.equal), (.ne, .unequal)] id).MakesTree ts tail (equality us) := by
  have makes := readSides_makes (fun a b => go ⟨.relational, a, b⟩) relational
    [(.eq, Comparison.equal), (.ne, .unequal)] id spans
    (answers.tighter spans .relational (.of_ne (by decide)) (Nat.lt_succ_self 4))
    fun a b vs fewer inner => answers.shorter spans .relational (by decide) inner fewer
  rw [show sidesOf? us _ = equalityOf? us from rfl] at makes
  rw [equality]
  cases found : equalityOf? us <;> rwa [found] at makes

theorem readRelational_makes (spans : Spans ts lo hi us)
    (answers : Answers ts tail ⟨.relational, lo, hi⟩ go) :
    (readSides (sourceOf ts tail) (fun a b => go ⟨.operand, a, b⟩) lo hi
      [(.ge, Relation.atLeast), (.le, .atMost), (.gt, .greater), (.lt, .less)] .relation).MakesTree
      ts tail (relational us) := by
  have makes := readSides_makes (fun a b => go ⟨.operand, a, b⟩) operand
    [(.ge, Relation.atLeast), (.le, .atMost), (.gt, .greater), (.lt, .less)] .relation spans
    (answers.tighter spans .operand (.of_ne (by decide)) (Nat.lt_succ_self 5))
    fun a b vs fewer inner => answers.shorter spans .operand (by decide) inner fewer
  rw [show sidesOf? us _ = relationOf? us from rfl] at makes
  rw [relational]
  cases found : relationOf? us <;> rwa [found] at makes

theorem readSingle_makes (spans : Spans ts lo hi us) (answers : Answers ts tail ⟨.operand, lo, hi⟩ go)
    (ungrouped : Ungrouped us) (single : (split .plus 0 us).2 = []) (solid : us ≠ []) :
    (readSingle (sourceOf ts tail) go lo hi).MakesTree ts tail (operand us) := by
  obtain ⟨t, rest, rfl⟩ := List.exists_cons_of_ne_nil solid
  refine (look_first spans).makes fun first kind => ?_
  rw [kind]
  by_cases negation : t.kind = .not
  · rw [if_pos (beq_iff_eq.mpr negation), operand_of_negation ungrouped negation single]
    exact (answers.shorter spans .operand (by decide) spans.next (Nat.lt_succ_self _)).returns
  · rw [if_neg (by rwa [beq_iff_eq])]
    have positive : ∀ u ∈ (t :: rest).head?, u.kind ≠ .not := by
      rintro u ⟨⟩
      exact negation
    obtain ⟨init, last, shape⟩ := (List.eq_nil_or_concat' (t :: rest)).resolve_left solid
    rw [shape] at spans ungrouped single solid positive ⊢
    refine (look_last spans).makes fun final kind => ?_
    rw [kind]
    by_cases asked : last.kind = .exist
    · rw [if_pos (beq_iff_eq.mpr asked), operand_of_exist ungrouped asked single positive]
      have before : Spans ts lo (hi - 1) init := by
        have count := spans.length
        rw [List.length_append, List.length_singleton] at count
        rw [show hi - 1 = lo + init.length by omega]
        exact spans.before
      exact (covered_sound before).makesNext .pure
    · rw [if_neg (by rwa [beq_iff_eq])]
      have unasked : ∀ u ∈ (init ++ [last]).getLast?, u.kind ≠ .exist := by
        intro u there
        rw [List.getLast?_concat] at there
        cases there
        exact asked
      have here := spans
      obtain ⟨front, within, first, final⟩ := here
      refine (seek_sound within first final).makesNext ?_
      rw [find?_stageMark]
      rcases parts : segments 0 (init ++ [last]) with ⟨base, _ | ⟨second, stages⟩⟩
      · rw [operand_of_leaf ungrouped solid single positive unasked (by rw [parts])]
        exact (covered_sound spans).makesNext (readLeaf_makes spans)
      · have makes := answers.tighter spans .chain (fun _ => by simp [parts]) (Nat.lt_succ_self 6)
        rw [treeOf, parts] at makes
        rwa [operand_of_chain ungrouped single positive unasked parts]

theorem readOperand_makes (spans : Spans ts lo hi us) (answers : Answers ts tail ⟨.operand, lo, hi⟩ go) :
    (readOperand (sourceOf ts tail) go lo hi).MakesTree ts tail (operand us) := by
  rw [readOperand]
  split
  · rename_i empty
    cases spans.empty.mp empty
    rw [operand]
    exact .pure
  · rename_i solid
    refine (isGroup_sound (fun _ => isOpener_of_isGroupOpener) spans).makesNext ?_
    cases group : group? isGroupOpener us with
    | some inside =>
      rw [operand_of_group group]
      exact answers.shorter spans .disjunction (by decide) (spans.within_group group)
        (group?_length group)
    | none =>
      refine (isGroup_sound (isOpener_of_beq rfl) spans).makesNext ?_
      cases braces : group? (· == .leftBrace) us with
      | some inside =>
        rw [operand_of_braces group braces]
        exact answers.shorter spans .object (by decide) (spans.within_group braces)
          (group?_length braces)
      | none =>
        refine (divided_sound .plus spans).makes ?_
        rintro ⟨first, rest⟩ ⟨here, others⟩
        rcases parts : split .plus 0 us with ⟨p, ps⟩
        rw [parts] at here others
        cases others with
        | nil =>
          exact readSingle_makes spans answers ⟨group, braces⟩ (by rw [parts])
            (mt spans.empty.mpr solid)
        | cons second others =>
          have several : (split .plus 0 us).2 ≠ [] := by simp [parts]
          have fewer : ∀ q ∈ p :: _ :: _, q.length < us.length := fun q listed =>
            length_lt_of_mem_split (by rwa [parts]) several
          have all : SpanAll ts (_ :: _ :: _) (_ :: _ :: _) := .cons here (.cons second others)
          rw [operand_of_sum ⟨group, braces⟩ parts]
          refine (all.mapM (g := operand) fun x q listed stands =>
            answers.shorter spans .operand (by decide) stands (fewer q listed)).returns.congr rfl ?_
          exact (allReadable_map operand _).symm

end Rules

section Parts

variable {ts us part : List Token} {tail : List Char} {lo hi a b : Int} {caller : Call}
  {go : (c : Call) → Traced c.rule.Result}

theorem readProperty_makes (spans : Spans ts caller.lo caller.hi us) (answers : Answers ts tail caller go)
    (inner : Spans ts a b part) (few : part.length ≤ us.length) :
    (readProperty (sourceOf ts tail) go a b).Makes ts tail (propertyOf part)
      ((propertyOf part).all (·.2.readable)) := by
  have here := inner
  obtain ⟨front, within, first, last⟩ := here
  refine (seek_sound within first last).makesNext ?_
  rw [find?_shown, propertyOf]
  cases found : cut .colon 0 part with
  | none => exact .pure
  | some cutting =>
    obtain ⟨name, value⟩ := cutting
    have lengths := cut_length found
    obtain ⟨colon, rfl, -⟩ := of_cut found
    have place : ((front ++ name).length : Int) = a + name.length := by
      rw [first, List.length_append, Int.natCast_add]
    simp only [Option.map_some, place]
    refine (covered_sound inner.before).makesNext ?_
    exact (answers.shorter spans .whole (by decide) inner.behind.next (by omega)).returns

theorem readObject_makes (spans : Spans ts lo hi us) (answers : Answers ts tail ⟨.object, lo, hi⟩ go) :
    (readObject (sourceOf ts tail) go lo hi).MakesTree ts tail (treeOf .object us) := by
  refine (divided_sound .comma spans).makes ?_
  rintro ⟨first, rest⟩ ⟨here, others⟩
  have all : SpanAll ts (first :: rest) (pieces .comma us) := .cons here others
  refine (all.mapM fun x q listed stands => readProperty_makes spans answers stands
    (length_le_of_mem_split listed)).returns.congr ?_ ?_
  · rw [treeOf, List.filterMap_map]
    rfl
  · change _ = propertiesReadable _
    rw [propertiesReadable_eq_all, List.all_filterMap]
    rfl

theorem readChain_makes (spans : Spans ts lo hi us) (answers : Answers ts tail ⟨.chain, lo, hi⟩ go)
    (staged : (segments 0 us).2 ≠ []) :
    (readChain (sourceOf ts tail) go lo hi).MakesTree ts tail (treeOf .chain us) := by
  have here := spans
  obtain ⟨front, within, first, last⟩ := here
  refine (topLevel_sound within first last).makesNext ?_
  have parts := stageSpans_shown 0 front [] within first last
  rw [List.append_nil] at parts
  obtain ⟨base, stages⟩ := parts
  refine ((answers.shorter spans .whole (by decide) base
    (length_lt_of_mem_segments List.mem_cons_self staged)).next
    (stages.mapM (g := stageOf) fun x q listed stands =>
      answers.shorter spans .stage (by decide) stands
        (length_lt_of_mem_segments (List.mem_cons_of_mem _ listed) staged)).returns).congr rfl ?_
  change _ = (_ && stagesReadable _)
  rw [stagesReadable_eq_all, List.all_map]
  rfl

end Parts

section Stages

variable {ts us middle : List Token} {first paren last : Token} {tail : List Char} {lo hi : Int}
  {go : (c : Call) → Traced c.rule.Result}

theorem Spans.legible (spans : Spans ts lo hi us) (legible : Legible ts tail) :
    ∃ rest, Legible us rest := by
  obtain ⟨front, ⟨back, rfl⟩, -, -⟩ := spans
  exact ⟨_, legible.of_append.1.of_append.2⟩

/-- Between the parenthesis and the last token, the span of a mapping is divided at its arrows. -/
theorem readMapping_makes (shape : us = first :: paren :: middle ++ [last]) (spans : Spans ts lo hi us)
    (answers : Answers ts tail ⟨.stage, lo, hi⟩ go) :
    (readMapping (sourceOf ts tail) go lo hi (raw us)).MakesStage ts tail
      (match mappingForm? us with
        | some (item, body) => .map item (whole body.val)
        | none => .unknown (String.ofList (raw us))) := by
  have inner : Spans ts (lo + 2) (hi - 1) middle := by
    have count := spans.length
    have behind := spans
    rw [shape] at behind count
    have := behind.next.next.before
    rw [Int.add_assoc] at this
    simp only [List.length_append, List.length_cons, List.length_nil] at count
    rwa [show hi - 1 = lo + (1 + 1) + middle.length by omega]
  have drop : (us.drop 2).dropLast = middle := by
    rw [shape]
    exact List.dropLast_concat
  obtain ⟨front, within, start, stop⟩ := inner
  refine (topLevel_sound within start stop).makesNext ?_
  have parts := spansBetween_shown .arrow 0 front [] within start stop
  rw [List.append_nil] at parts
  cases arrows : placesOf .arrow (shown 0 front middle) with
  | nil =>
    rw [arrows] at parts
    have one : (split .arrow 0 (us.drop 2).dropLast).2 = [] := by
      rw [drop]
      exact List.forall₂_nil_left_iff.mp parts.2
    rw [mappingForm?_of_one one]
    exact .pure
  | cons arrow more =>
    rw [arrows, spansBetween] at parts
    rcases divided : split .arrow 0 middle with ⟨item, pieces⟩
    rw [divided] at parts
    obtain ⟨here, others⟩ := parts
    cases others with
    | cons body others =>
      rw [← drop] at divided
      obtain ⟨b, form, rfl⟩ := mappingForm?_of_parts divided
      have ends : (spansBetween (arrow + 1) (hi - 1) more).1 = (arrow + 1, more.headD (hi - 1)) := by
        cases more <;> rfl
      rw [ends] at body
      rw [form]
      refine (covered_sound here).makesNext ?_
      exact (answers.shorter spans .whole (by decide) body b.property).returns

theorem readStage_makes (legible : Legible ts tail) (spans : Spans ts lo hi us)
    (answers : Answers ts tail ⟨.stage, lo, hi⟩ go) :
    (readStage (sourceOf ts tail) go lo hi).MakesStage ts tail (stageOf us) := by
  obtain ⟨rest, legible⟩ := spans.legible legible
  have argument {name : String} (word : IsWord name) (call : isCall name (raw us) = true) :
      (argumentOf (sourceOf ts tail) lo hi).Sound ts.length (· = argument (us.drop 2)) := by
    obtain ⟨first, middle, last, shape⟩ := exists_call word legible call
    rw [shape] at spans ⊢
    exact argumentOf_sound spans
  refine (covered_sound spans).makesNext ?_
  unfold stageOf stageForm
  dsimp only
  split
  · exact .pure
  split
  · exact .pure
  split
  · exact .pure
  split
  · rename_i call
    exact (argument (by decide +kernel) call).makesNext .pure
  split
  · rename_i call
    exact (argument (by decide +kernel) call).makesNext .pure
  split
  · rename_i call
    obtain ⟨first, middle, last, shape⟩ := exists_call (by decide +kernel) legible call
    have makes := readMapping_makes shape spans answers
    cases found : mappingForm? us <;> rwa [found] at makes
  · exact .pure

end Stages

section Runs

variable {ts us : List Token} {tail : List Char}

theorem body_makes {self : (c : Call) → Traced c.rule.Result} {c : Call} (legible : Legible ts tail)
    (spans : Spans ts c.lo c.hi us) (fits : Fits c.rule us) (answers : Answers ts tail c self) :
    (body (sourceOf ts tail) self c).Makes ts tail (treeOf c.rule us)
      (treeOf c.rule us).readable := by
  have handed : Answers ts tail c fun callee =>
      ⟨.hand c callee :: (self callee).acts, (self callee).result⟩ := by
    intro callee vs below inner fits
    obtain ⟨acts, result, reads⟩ := answers callee vs below inner fits
    refine ⟨List.forall_mem_cons.mpr ⟨⟨inner.within, below⟩, acts⟩, result, ?_⟩
    simpa only [List.mem_cons, reduceCtorEq, false_or] using reads
  obtain ⟨rule, lo, hi⟩ := c
  cases rule with
  | whole => exact readWhole_makes spans handed
  | disjunction => exact readDisjunction_makes spans handed
  | conjunction => exact readConjunction_makes spans handed
  | conditional => exact readConditional_makes spans handed
  | equality => exact readEquality_makes spans handed
  | relational => exact readRelational_makes spans handed
  | operand => exact readOperand_makes spans handed
  | object => exact readObject_makes spans handed
  | chain => exact readChain_makes spans handed (fits rfl)
  | stage => exact readStage_makes legible spans handed

theorem Rule.tightness_le (rule : Rule) : rule.tightness ≤ 7 := by
  cases rule <;> decide

/-- Every call is eight times as far from the end as its span is long, less its rule's tightness. -/
theorem run_makes (legible : Legible ts tail) (depth : Nat) {c : Call} (spans : Spans ts c.lo c.hi us)
    (fits : Fits c.rule us) (deep : 8 * us.length + 7 < depth + c.rule.tightness) :
    (run (sourceOf ts tail) depth c).Makes ts tail (treeOf c.rule us)
      (treeOf c.rule us).readable := by
  induction depth generalizing c us with
  | zero =>
    have := c.rule.tightness_le
    omega
  | succ depth ih =>
    refine body_makes legible spans fits fun callee vs below inner fits' => ih inner fits' ?_
    -- a shorter span pays for all eight rules, a tighter rule for itself
    have outer := spans.length
    have extent := inner.length
    rcases below with shorter | ⟨start, stop, tighter⟩
    · have := c.rule.tightness_le
      omega
    · rw [start, stop] at extent
      omega

end Runs

/-- Reading on spans makes the tree, whatever the tokens are, unless one of the texts that it reads is a
numeral with too many digits; no text of few characters holds one. What it hands on is always a span of
the tokens, shorter or read by a tighter rule, and it looks at places of tokens only. -/
theorem parse_within (e : String) :
    (∀ failure, tokenize e.toList = .error failure → parse e = .error (.unterminated failure)) ∧
    ∀ lexed, tokenize e.toList = .ok lexed → ∀ depth, 8 * (lexed.tokens.length + 1) ≤ depth →
      let source : Source := ⟨e.toList, spots 0 lexed.tokens⟩
      let count : Int := lexed.tokens.length
      let reading := run source depth ⟨.whole, 0, count⟩
      let legible := ∀ cs, .read cs ∈ reading.acts → Numeral.tooLong cs = false
      (legible → ∃ tree, parse e = .ok tree ∧ reading.result = .ok tree) ∧
      (¬legible → parse e = .error (.fault .tooManyDigits) ∧
        reading.result = .error .tooManyDigits) ∧
      (e.length ≤ digitLimit → legible) ∧
      (∀ place, .look place ∈ reading.acts → 0 ≤ place ∧ place < count) ∧
      ∀ caller callee, .hand caller callee ∈ reading.acts →
        (0 ≤ callee.lo ∧ callee.lo ≤ callee.hi ∧ callee.hi ≤ count) ∧ callee.Below caller := by
  refine ⟨fun failure endless => ?_, ?_⟩
  · rw [parse, endless]
    rfl
  · rintro ⟨ts, tail⟩ read depth deep source count reading legible
    obtain ⟨text, lexed, -⟩ := tokenize_eq_ok_iff.mp read
    have deep : 8 * (ts.length + 1) ≤ depth := deep
    have all : Spans ts 0 count ts := ⟨[], List.prefix_rfl, rfl, rfl⟩
    have makes := run_makes lexed depth (c := ⟨.whole, 0, count⟩) all
      (.of_ne (show Rule.whole ≠ .chain by decide))
      (show 8 * ts.length + 7 < depth + 0 by omega)
    rw [sourceOf, ← text] at makes
    have makes : reading.MakesTree ts tail (whole ts) := makes
    have parsed : parse e = (whole ts).checked := by
      rw [parse, read]
      rfl
    refine ⟨fun good => ?_, fun bad => ?_, fun few cs listed => ?_, fun _ listed => makes.acts _ listed,
      fun _ _ listed => makes.acts _ listed⟩
    · have readable := makes.reads.mpr good
      exact ⟨_, parsed.trans (Expr.checked_of_readable readable),
        makes.result.trans (if_pos readable)⟩
    · have unreadable := Bool.eq_false_iff.mpr (mt makes.reads.mp bad)
      exact ⟨parsed.trans (Expr.checked_of_unreadable unreadable),
        makes.result.trans (if_neg (Bool.eq_false_iff.mp unreadable))⟩
    · have part : cs <:+: textBehind ts ++ tail := makes.acts _ listed
      have short := part.length_le
      rw [← text, String.length_toList] at short
      exact Numeral.not_tooLong_of_length (short.trans few)

/-- A chain with nothing in front, a mapping whose body is empty, and a call without an argument, whose
parenthesis is the last token that is looked at. -/
theorem parse_within_empty :
    (∃ failure, parse "?map('" = .error failure) ∧
    ∃ lexed, tokenize "?map(->)?join()".toList = .ok lexed ∧
      let count : Int := lexed.tokens.length
      let reading := run ⟨"?map(->)?join()".toList, spots 0 lexed.tokens⟩ 80 ⟨.whole, 0, count⟩
      (∃ tree, parse "?map(->)?join()" = .ok tree ∧ reading.result = .ok tree) ∧
      (.look 8 ∈ reading.acts ∧ 0 ≤ (8 : Int) ∧ 8 < count) ∧
      .hand ⟨.stage, 1, 5⟩ ⟨.whole, 4, 4⟩ ∈ reading.acts ∧
        (0 ≤ (4 : Int) ∧ (4 : Int) ≤ 4 ∧ 4 ≤ count) ∧ Call.Below ⟨.whole, 4, 4⟩ ⟨.stage, 1, 5⟩ := by
  let lexed : Lexed := ⟨[⟨.question, [], ['?']⟩, ⟨.word, [], ['m', 'a', 'p']⟩, sign .leftParen [],
    ⟨.arrow, [], ['-', '>']⟩, sign .rightParen [], ⟨.question, [], ['?']⟩,
    ⟨.word, [], ['j', 'o', 'i', 'n']⟩, sign .leftParen [], sign .rightParen []], []⟩
  have endless : tokenize "?map('".toList = .error ⟨5⟩ := by decide +kernel
  have read : tokenize "?map(->)?join()".toList = .ok lexed := by decide +kernel
  let acts := (run ⟨"?map(->)?join()".toList, spots 0 lexed.tokens⟩ 80 ⟨.whole, 0, 9⟩).acts
  have last : .look 8 ∈ acts := by decide +kernel
  have body : .hand ⟨.stage, 1, 5⟩ ⟨.whole, 4, 4⟩ ∈ acts := by decide +kernel
  obtain ⟨made, -, few, looks, hands⟩ :=
    (parse_within "?map(->)?join()").2 lexed read 80 (by decide)
  exact ⟨⟨_, (parse_within "?map('").1 _ endless⟩, lexed, read, made (few (by decide)),
    ⟨last, looks 8 last⟩, body, hands _ _ body⟩

/-- Digits alone are one token; too many of them are a text without a tree. -/
theorem parse_of_paddedOne :
    (∃ lexed, tokenize (String.ofList Numeral.paddedOne).toList = .ok lexed) ∧
      parse (String.ofList Numeral.paddedOne) = .error (.fault .tooManyDigits) := by
  have spells : Spells (String.ofList Numeral.paddedOne).toList _ [] := isWord_paddedOne.spells
  refine ⟨⟨_, tokenize_eq_ok_iff.mpr ⟨spells.covers, spells.legible, spells.blank⟩⟩, ?_⟩
  rw [spells.parse_eq, disjunction_leaf (.inl rfl), String.toList_ofList, leaf_paddedOne]
  exact Expr.checked_of_unreadable rfl

end Walkthrough.Expression.Span
