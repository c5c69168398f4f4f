import Walkthrough.Proofs.Expression.Compound
import Walkthrough.Proofs.Expression.Lookup
import Walkthrough.Proofs.Expression.Making

/-! A mapping evaluates its body once for each item. The items are told apart from other containers
by their labels, so a value is followed here in its labelled context, from a next free label on. The
body is read with the text around it, so where it cannot be read nothing is evaluated at all. -/
namespace Walkthrough.Expression

open Value

/-- The settled value of a tree and the next free label behind it. A tree that fails is null. -/
def Expr.settle (e : Expr) (context : Result) (next : Nat) : Result × Nat :=
  match (e.eval context).run next with
  | .ok (v, free) => (v.normalize, free)
  | .error _ => (.null, next)

/-- The same for a text; one that is no expression is null. -/
def evaluateFrom (text : String) (context : Result) (next : Nat) : Result × Nat :=
  match parse text with
  | .ok e => e.settle context next
  | .error _ => (.null, next)

section Settle

variable {e : Expr} {context : Result} {n m : Nat}

theorem le_settle (e : Expr) (context : Result) (n : Nat) : n ≤ (e.settle context n).2 := by
  have stays := (e.eval_moves (moved_shifts n 0) context).stays
  rw [Expr.settle]
  split
  · rename_i ran
    exact stays n _ _ (Nat.le_refl n) ran
  · exact Nat.le_refl n

theorem exists_absorb (e : Expr) (context : Result) (n : Nat) :
    ∃ v, (absorb (e.eval context)).run n = .ok (v, (e.settle context n).2) ∧
      v.normalize = (e.settle context n).1 := by
  simp only [Expression.absorb, StateT.run, Expr.settle]
  cases e.eval context n with
  | ok p => exact ⟨p.1, rfl, rfl⟩
  | error => exact ⟨.null, rfl, rfl⟩

/-- What the value is does not depend on the label from which it is computed. -/
theorem erase_settle (known : context.Every (fun _ => True) (· < n)) (le : n ≤ m) :
    (e.settle context m).1.erase = (e.settle context n).1.erase := by
  obtain ⟨shift, rfl⟩ := Nat.exists_eq_add_of_le le
  have same : context.relabel (moved n shift) = context :=
    known.relabel_eq fun label below => moved_of_lt below
  have ran := (e.eval_moves (moved_shifts n shift) context).run n (Nat.le_refl n)
  rw [same] at ran
  rw [Expr.settle, Expr.settle, ran]
  cases (e.eval context).run n with
  | error => rfl
  | ok p => exact settled_relabel (moved n shift) p.1

theorem every_settle (e : Expr) (context : Result) (made : Made (fun _ => True) n context) :
    (e.settle context n).1.Every (fun _ => True) (· < (e.settle context n).2) := by
  have gives := e.eval_gives (fun _ _ => trivial) made n
  rw [Expr.settle]
  split
  · rename_i ran
    exact (gives _ _ (Nat.le_refl n) ran).2
  · exact .atom trivial

/-- Computations that cannot fail give one result for each item, in order, from labels on that grow. -/
theorem exists_mapM {α β : Type} {f : α → Eval β} {g : α → Nat → β × Nat}
    (total : ∀ a k, (f a).run k = .ok (g a k)) (grows : ∀ a k, k ≤ (g a k).2) (items : List α)
    (n : Nat) : ∃ bs m, (items.mapM f).run n = .ok (bs, m) ∧
      List.Forall₂ (fun a b => ∃ k, n ≤ k ∧ (g a k).1 = b) items bs := by
  induction items generalizing n with
  | nil => exact ⟨[], n, rfl, .nil⟩
  | cons a rest ih =>
    obtain ⟨bs, m, ran, each⟩ := ih (g a n).2
    have later : List.Forall₂ (fun a b => ∃ k, n ≤ k ∧ (g a k).1 = b) rest bs :=
      each.imp fun _ _ ⟨k, le, same⟩ => ⟨k, Nat.le_trans (grows a n) le, same⟩
    refine ⟨(g a n).1 :: bs, m, ?_, .cons ⟨n, Nat.le_refl n, rfl⟩ later⟩
    rw [List.mapM_cons, StateT.run_bind, total]
    change ((rest.mapM f >>= fun bs => pure ((g a n).1 :: bs)).run (g a n).2) = _
    rw [StateT.run_bind, ran]
    rfl

end Settle

section Mapping

variable {base body : Expr} {item : String} {label n m : Nat} {es : Entries Nat}

/-- The context that the body sees. -/
def bound (label : Nat) (es : Entries Nat) (item : String) (v : Result) : Result :=
  .map label (es.insert (.text item) v)

theorem every_bound (item : String) {v : Result}
    (known : (Value.map label es).Every (fun _ => True) (· < n)) (le : n ≤ m)
    (inside : v.Every (fun _ => True) (· < m)) :
    (bound label es item v).Every (fun _ => True) (· < m) := by
  obtain ⟨own, all⟩ := every_map_iff.mp (every_mono le known)
  exact .map own (Entries.forall_insert all inside)

theorem run_body (v : Result) (n : Nat) : StateT.run (do
      let inner ← withItem item v (.map label es)
      return (← absorb (body.eval inner)).normalize) n =
    .ok (body.settle (bound label es item v) n) := by
  obtain ⟨w, ran, same⟩ := exists_absorb body (bound label es item v) n
  change ((absorb (body.eval (bound label es item v)) >>= fun w => pure w.normalize).run n) = _
  rw [StateT.run_bind, ran]
  exact congrArg Except.ok (Prod.ext same rfl)

/-- A stage is applied to what the base comes to, null if it fails. -/
theorem run_chain (stage : Stage) : ∃ v, v.normalize = (base.settle (.map label es) n).1 ∧
    ((Expr.chain base [stage]).eval (.map label es)).run n =
      (stage.apply v (.map label es)).run (base.settle (.map label es) n).2 := by
  obtain ⟨v, ran, same⟩ := exists_absorb base (.map label es) n
  refine ⟨v, same, ?_⟩
  simp only [Expr.eval, applyAll, bind_pure]
  rw [StateT.run_bind, ran]
  rfl

theorem settle_map_of_other
    (other : ∀ own items, (base.settle (.map label es) n).1 ≠ .list own items) :
    (Expr.chain base [.map item body]).settle (.map label es) n = base.settle (.map label es) n := by
  obtain ⟨v, same, ran⟩ := run_chain (.map item body)
  rw [Expr.settle, ran]
  cases v with
  | list own items => exact absurd same.symm (other own items)
  | atom s => exact Prod.ext same rfl
  | map own entries => exact Prod.ext same rfl

/-- On a list, the body is evaluated for each item in a context of its own. -/
theorem settle_map (body : Expr) (item : String) {own : Nat} {items : List Result}
    (list : base.settle (.map label es) n = (.list own items, m)) :
    ∃ own' results m', (Expr.chain base [.map item body]).settle (.map label es) n =
        (.list own' results, m') ∧
      List.Forall₂ (fun v w => ∃ k, m ≤ k ∧ (body.settle (bound label es item v) k).1 = w)
        items results := by
  obtain ⟨v, same, ran⟩ := run_chain (.map item body)
  rw [list] at same ran
  obtain rfl : v = .list own items := by
    cases v with
    | atom s => cases s <;> cases same
    | list | map => exact same
  obtain ⟨results, m', mapped, each⟩ := exists_mapM run_body
    (fun v k => le_settle body (bound label es item v) k) items m
  refine ⟨m', results, m' + 1, ?_, each⟩
  rw [Expr.settle, ran, Stage.apply, StateT.run_bind, mapped]
  rfl

/-- From whichever label the body is evaluated for an item, its value is the same but for labels. -/
theorem settle_map_erase (body : Expr) (item : String) {own : Nat} {items : List Result}
    (known : (Value.map label es).Every (fun _ => True) (· < n))
    (list : base.settle (.map label es) n = (.list own items, m)) :
    ∃ own' results m', (Expr.chain base [.map item body]).settle (.map label es) n =
        (.list own' results, m') ∧
      List.Forall₂ (fun v w => (∃ k, m ≤ k ∧ (body.settle (bound label es item v) k).1 = w) ∧
        ∀ k, m ≤ k → (body.settle (bound label es item v) k).1.erase = w.erase) items results := by
  obtain ⟨own', results, m', mapped, each⟩ := settle_map body item list
  refine ⟨own', results, m', mapped, ?_⟩
  have le : n ≤ m := by
    have grows := le_settle base (.map label es) n
    rwa [list] at grows
  obtain ⟨-, inside⟩ : own < m ∧ ∀ v ∈ items, v.Every (fun _ => True) (· < m) := by
    have made := every_settle base (.map label es) known
    rwa [list, every_list_iff] at made
  refine ((List.forall₂_and_left _ _).mpr ⟨inside, each⟩).imp ?_
  rintro v w ⟨v_known, k, from_m, rfl⟩
  refine ⟨⟨k, from_m, rfl⟩, fun j from_m' => ?_⟩
  have inner_known := every_bound item known le v_known
  exact (erase_settle inner_known from_m').trans (erase_settle inner_known from_m).symm

end Mapping

section Texts

variable {l b x : String} {as bs : List Token} {tailA tailB : List Char}

theorem parse_map (base : Spells l.toList as tailA) (body : Spells b.toList bs tailB)
    (word : IsWord x) : parse ("(" ++ l ++ ")?map(" ++ x ++ " -> (" ++ b ++ "))") =
      (Expr.chain (disjunction as) [.map x (disjunction bs)]).checked := by
  have stage := ReadsStage.map word (body.reads_inParens.mono (Nat.zero_le 8))
  have stages : ∀ s ∈ [Stage.map x (disjunction bs)], ReadsStage _ s :=
    List.forall_mem_singleton.mpr stage
  have reads := Reads.chain (List.cons_ne_nil _ _) base.reads_inParens stages
  exact reads.parse_eq (by simp [inParens, spaced, Kind.sign])

theorem evaluateFrom_of_parse {text : String} {e : Expr} (parsed : parse text = e.checked)
    (context : Result) (n : Nat) :
    evaluateFrom text context n = if e.readable then e.settle context n else (.null, n) := by
  rw [evaluateFrom, parsed]
  cases readable : e.readable with
  | true => rw [Expr.checked_of_readable readable, if_pos rfl]
  | false => rw [Expr.checked_of_unreadable readable, if_neg Bool.false_ne_true]

theorem Spells.evaluateFrom_eq (spells : Spells l.toList as tailA) (context : Result) (n : Nat) :
    evaluateFrom l context n =
      if (disjunction as).readable then (disjunction as).settle context n else (.null, n) :=
  evaluateFrom_of_parse spells.parse_eq context n

theorem Spells.readText_eq_ok_iff (spells : Spells l.toList as tailA) :
    readText l = .ok () ↔ (disjunction as).readable = true := by
  rw [spells.readText_eq]
  cases (disjunction as).readable <;> simp

theorem parse_of_blank {text : String} (blank : Text.allBlank text.toList = true) :
    parse text = .ok (.literal .null) := by
  have read : tokenize text.toList = .ok ⟨[], text.toList⟩ :=
    tokenize_eq_ok_iff.mpr ⟨rfl, trivial, blank⟩
  have tree : whole [] = .literal .null := by rw [whole]; rfl
  rw [parse, read]
  exact congrArg Expr.checked tree

theorem erase_settle_labelled (e : Expr) (context : Data) :
    (e.settle (context.labelled 0).1 (context.labelled 0).2).1.erase =
      match e.value context with
      | .ok v => v
      | .error _ => .null := by
  rw [Expr.value_eq, Expr.settle]
  cases (e.eval (context.labelled 0).1).run (context.labelled 0).2 <;> rfl

theorem evaluate_eq_evaluateFrom (text : String) (data : Entries Unit) :
    let context := (Value.ofEntries data).labelled 0
    evaluate (.text text) (.ofEntries data) = (evaluateFrom text context.1 context.2).1.erase := by
  intro context
  rw [evaluate, evaluateText_ofEntries, evaluateStrict, evaluateFrom]
  cases blank : Text.allBlank text.toList with
  | true =>
    rw [parse_of_blank blank]
    rfl
  | false =>
    cases parse text with
    | error e => cases e <;> rfl
    | ok e =>
      rw [if_neg Bool.false_ne_true]
      change _ = (e.settle context.1 context.2).1.erase
      rw [erase_settle_labelled]
      dsimp only
      cases e.value (.ofEntries data) <;> rfl

/-- A mapping over a list evaluates its body for each item, in order, in the context with that item
under the variable; a body that fails or has a missing value gives null for its item alone. What is
no list stays what it is. The values are those of the text of the body alone, and for plain data
`evaluateFrom` is what `evaluate` shows. But a body that cannot be read makes the whole null. -/
theorem evaluate_map (first : Admissible l) (second : Admissible b) (word : IsWord x)
    {label n : Nat} {es : Entries Nat}
    (known : (Value.map label es).Every (fun _ => True) (· < n)) :
    let text := "(" ++ l ++ ")?map(" ++ x ++ " -> (" ++ b ++ "))"
    let context := Value.map label es
    (readText b = .ok () →
      (∀ own items m, evaluateFrom l context n = (.list own items, m) →
        ∃ own' results m', evaluateFrom text context n = (.list own' results, m') ∧
          List.Forall₂ (fun item result =>
            let inner := Value.map label (es.insert (.text x) item)
            (∃ k, m ≤ k ∧ (evaluateFrom b inner k).1 = result) ∧
              ∀ k, m ≤ k → (evaluateFrom b inner k).1.erase = result.erase) items results) ∧
      ((∀ own items, (evaluateFrom l context n).1 ≠ .list own items) →
        evaluateFrom text context n = evaluateFrom l context n)) ∧
    (readText b ≠ .ok () → evaluateFrom text context n = (.null, n)) ∧
    ∀ t (data : Entries Unit), let context := (Value.ofEntries data).labelled 0
      evaluate (.text t) (.ofEntries data) = (evaluateFrom t context.1 context.2).1.erase := by
  intro text context
  obtain ⟨as, tailA, base⟩ := first.spells
  obtain ⟨bs, tailB, body⟩ := second.spells
  have parsed := evaluateFrom_of_parse (parse_map base body word) context n
  simp only [Expr.readable, stagesReadable, Stage.readable, Bool.and_true] at parsed
  refine ⟨fun legible => ?_, fun illegible => ?_, evaluate_eq_evaluateFrom⟩
  · have legible := body.readText_eq_ok_iff.mp legible
    rw [legible, Bool.and_true] at parsed
    cases readable : (disjunction as).readable with
    | false =>
      have null : evaluateFrom l context n = (.null, n) := by simp [base.evaluateFrom_eq, readable]
      rw [null]
      refine ⟨fun own items m list => ?_, fun _ => by simpa [readable] using parsed⟩
      cases congrArg Prod.fst list
    | true =>
      rw [readable, if_pos rfl] at parsed
      have alone : evaluateFrom l context n = (disjunction as).settle context n := by
        simp [base.evaluateFrom_eq, readable]
      rw [alone]
      refine ⟨fun own items m list => ?_, fun other => parsed.trans (settle_map_of_other other)⟩
      obtain ⟨own', results, m', mapped, each⟩ := settle_map_erase (disjunction bs) x known list
      refine ⟨own', results, m', parsed.trans mapped, ?_⟩
      simp only [body.evaluateFrom_eq, legible, if_true]
      exact each
  · have unread := Bool.eq_false_iff.mpr fun h => illegible (body.readText_eq_ok_iff.mpr h)
    rw [unread, Bool.and_false] at parsed
    simpa using parsed

theorem evaluate_map_arrows :
    let l := "xs || ' -> '"
    let b := "x.n || ys?map(x -> x == xs.1)?join(\") -> \")"
    let es : Entries Nat := [(.text "xs", .list 1 [.map 2 [(.text "n", .int 1)], .list 3 []]),
      (.text "ys", .list 4 [.list 5 []])]
    let text := "(" ++ l ++ ")?map(" ++ "x" ++ " -> (" ++ b ++ "))"
    let context := Value.map 0 es
    Admissible l ∧ Admissible b ∧ IsWord "x" ∧ context.Every (fun _ => True) (· < 6) ∧
    (readText b = .ok () →
      (∀ own items m, evaluateFrom l context 6 = (.list own items, m) →
        ∃ own' results m', evaluateFrom text context 6 = (.list own' results, m') ∧
          List.Forall₂ (fun item result =>
            let inner := Value.map 0 (es.insert (.text "x") item)
            (∃ k, m ≤ k ∧ (evaluateFrom b inner k).1 = result) ∧
              ∀ k, m ≤ k → (evaluateFrom b inner k).1.erase = result.erase) items results) ∧
      ((∀ own items, (evaluateFrom l context 6).1 ≠ .list own items) →
        evaluateFrom text context 6 = evaluateFrom l context 6)) ∧
    (readText b ≠ .ok () → evaluateFrom text context 6 = (.null, 6)) ∧
    ∀ t (data : Entries Unit), let context := (Value.ofEntries data).labelled 0
      evaluate (.text t) (.ofEntries data) = (evaluateFrom t context.1 context.2).1.erase := by
  intro l b es text context
  have first : Admissible l := by decide +kernel
  have second : Admissible b := by decide +kernel
  have word : IsWord "x" := by decide
  have known : context.Every (fun _ => True) (· < 6) := by simp [context, es]
  exact ⟨first, second, word, known, evaluate_map first second word known⟩

/-- A numeral that cannot be read in the body takes the list away as well. -/
theorem evaluate_map_of_unreadable_body :
    let b := String.ofList Numeral.paddedOne
    let context : Data := .ofEntries [(.text "replies", .ofEntries
      [(.text "x", .ofList [.int 1, .int 2])])]
    Admissible "replies.x" ∧ Admissible b ∧ IsWord "x" ∧
      evaluate (.text "replies.x") context = .ofList [.int 1, .int 2] ∧
      evaluate (.text ("(" ++ "replies.x" ++ ")?map(" ++ "x" ++ " -> (" ++ b ++ "))")) context =
        .null := by
  intro b context
  have word : IsWord "x" := by decide
  have base : IsWord "replies.x" := by decide +kernel
  have body : Spells b.toList _ [] := isWord_paddedOne.spells
  have unread : (disjunction [⟨.word, [], (String.ofList Numeral.paddedOne).toList⟩]).readable =
      false := by
    rw [disjunction_leaf (.inl rfl), String.toList_ofList, leaf_paddedOne]
    rfl
  have parsed := evaluateFrom_of_parse (parse_map base.spells body word)
    (context.labelled 0).1 (context.labelled 0).2
  simp only [Expr.readable, stagesReadable, Stage.readable, unread, Bool.false_and, Bool.and_false,
    Bool.false_eq_true, if_false] at parsed
  refine ⟨by decide +kernel, admissible_iff.mpr ⟨body.solid_text, _, isWord_paddedOne, .cons rfl .nil⟩,
    word, ?_, ?_⟩
  · have there : Entries.field? [(.text "replies", .ofEntries
        [(.text "x", .ofList [.int 1, .int 2])])] "replies" =
        some (.ofEntries [(.text "x", .ofList [.int 1, .int 2])]) := rfl
    exact evaluate_dotted leading_replies word (by decide) there
  · rw [evaluate_eq_evaluateFrom, parsed]
    rfl

end Texts

end Walkthrough.Expression
