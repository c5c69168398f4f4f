import Walkthrough.Proofs.Expression.Composition

/-! Texts that the parser reads as a tree wherever they stand. Such a text has tokens of its own as
long as nothing behind it goes on with its last word; which operators the tokens show decides at
which levels they are read alike. There is one rule for each way to put texts together. -/
namespace Walkthrough.Expression

/-- Nothing here goes on with a word in front. -/
def Apart (rest : List Char) : Prop := ∀ d ∈ rest.head?, endsWords d = true

/-- The tokens of a text, with white space in front and nothing behind that goes on with it. -/
structure Written (gap cs : List Char) (ts : List Token) : Prop where
  begins : ∃ d more, cs = d :: more ∧ d ≠ '=' ∧ d ≠ '?'
  covers : textBehind ts = gap ++ cs
  legible : ∀ rest, Apart rest → Legible ts rest

/-- A text that is read as this tree at a level, whatever white space stands in front. -/
def Reads (n : Nat) (cs : List Char) (e : Expr) : Prop :=
  ∀ gap, Text.allBlank gap = true → ∃ ts, Written gap cs ts ∧ Holds n ts ∧ readAt n ts = e

theorem apart_cons {d : Char} (ends : endsWords d = true) (rest : List Char) : Apart (d :: rest) := by
  intro c head
  cases head
  exact ends

theorem apart_nil : Apart [] := nofun

namespace Written

variable {gap cs more : List Char} {ts us : List Token} {kind : Kind}

theorem solid (written : Written gap cs ts) : ts ≠ [] := by
  obtain ⟨⟨d, more, rfl, -⟩, covers, -⟩ := written
  rintro rfl
  simp at covers

theorem pair? (written : Written [] cs ts) {c : Char} (prefix_ : c = '!' ∨ c = '?') (rest : List Char) :
    pairKind? c (textBehind ts ++ rest).head? = none := by
  obtain ⟨⟨d, more, rfl, noEq, noQuestion⟩, covers, -⟩ := written
  rw [covers]
  rcases prefix_ with rfl | rfl <;> simp [pairKind?, noEq, noQuestion]

theorem append (first : Written gap cs ts) (second : textBehind us = more) (apart : Apart more)
    (legible : ∀ rest, Apart rest → Legible us rest) : Written gap (cs ++ more) (ts ++ us) where
  begins := by
    obtain ⟨d, front, rfl, others⟩ := first.begins
    exact ⟨d, front ++ more, rfl, others⟩
  covers := by rw [textBehind_append, first.covers, second, List.append_assoc]
  legible rest after := by
    refine Legible.append (first.legible _ ?_) (legible rest after)
    rw [second]
    cases more with
    | nil => exact after
    | cons d more => exact apart_cons (apart d rfl) _

/-- Further texts behind the first, each behind a token of its own. -/
theorem joined {α : Type} {f : α → List Char} {g : α → List Token} {xs : List α} {op : Token}
    {inner : List Char} (first : Written gap cs ts) (each : ∀ x ∈ xs, Written inner (f x) (g x))
    (apart : ∀ rest, Apart (op.gap ++ op.lexeme ++ rest))
    (heads : ∀ x ∈ xs, ∀ rest, op.Heads (textBehind (g x) ++ rest)) :
    Written gap (cs ++ xs.flatMap fun x => op.gap ++ op.lexeme ++ (inner ++ f x))
      (joined op ts (xs.map g)) := by
  induction xs generalizing gap cs ts with
  | nil => simpa [Expression.joined] using first
  | cons x xs ih =>
    have later := ih (each x List.mem_cons_self)
      (fun y inside => each y (List.mem_cons_of_mem _ inside))
      (fun y inside => heads y (List.mem_cons_of_mem _ inside))
    rw [List.map_cons, joined_cons, List.flatMap_cons]
    refine first.append ?_ (by simpa only [List.append_assoc] using apart _) fun rest after => ?_
    · rw [textBehind_cons, later.covers]
      simp only [List.append_assoc]
    · refine ⟨?_, later.legible rest after⟩
      rw [Expression.joined, textBehind_append, List.append_assoc]
      exact heads x List.mem_cons_self _

end Written

theorem exists_tokens {α : Type} {P : α → List Token → Prop} {xs : List α}
    (each : ∀ x ∈ xs, ∃ ts, P x ts) : ∃ g : α → List Token, ∀ x ∈ xs, P x (g x) := by
  classical
  refine ⟨fun x => if inside : x ∈ xs then (each x inside).choose else [], fun x inside => ?_⟩
  simpa only [dif_pos inside] using (each x inside).choose_spec

/-- An operator with spaces around it, in front of a text. -/
def spaced (op : Kind) (cs : List Char) : List Char := ' ' :: op.sign ++ ' ' :: cs

namespace Reads

variable {α : Type} {m n : Nat} {cs ds : List Char} {e e' : Expr} {xs : List α}
  {f : α → List Char} {made : α → Expr} {op : Kind}

theorem mono (reads : Reads n cs e) (le : m ≤ n) : Reads m cs e := by
  intro gap blank
  obtain ⟨ts, written, holds, same⟩ := reads gap blank
  exact ⟨ts, written, holds.mono le, (holds.readAt_eq le).trans same⟩

theorem parse_eq {text : String} (reads : Reads n cs e) (covers : text.toList = cs) :
    parse text = e.checked := by
  subst covers
  obtain ⟨ts, written, holds, same⟩ := reads [] rfl
  have read : tokenize text.toList = .ok ⟨ts, []⟩ := by
    rw [tokenize_eq_ok_iff, List.append_nil, written.covers]
    exact ⟨rfl, written.legible [] apart_nil, rfl⟩
  rw [parse, read]
  refine congrArg Expr.checked ((whole_eq written.solid).trans ?_)
  rw [← same]
  exact holds.readAt_eq (Nat.zero_le n)

theorem parens (reads : Reads n cs e) : Reads 8 ('(' :: cs ++ [')']) e := by
  intro gap blank
  obtain ⟨ts, written, holds, same⟩ := reads [] rfl
  refine ⟨sign .leftParen gap :: ts ++ [sign .rightParen []], ⟨⟨_, _, rfl, by decide, by decide⟩, ?_,
    fun rest _ => ?_⟩, holds_enclose rfl rfl holds.nested, ?_⟩
  · simp [textBehind_append, written.covers, Kind.sign]
  · exact Legible.cons blank (by decide) rfl (Legible.append
      (written.legible _ (apart_cons rfl _)) (Legible.cons rfl (by decide) rfl trivial))
  · rw [← same, ← holds.readAt_eq (Nat.zero_le n)]
    exact readAt_group rfl rfl holds.nested 8

/-- The tokens of operands with an operator between each two of them. -/
theorem operands (op : Kind) (spelled : op.sign ≠ []) (first : Reads n cs e)
    (rest : ∀ x ∈ xs, Reads n (f x) (made x)) {gap : List Char} (blank : Text.allBlank gap = true) :
    ∃ ts tss, Written gap (cs ++ xs.flatMap fun x => spaced op (f x)) (joined (sign op [' ']) ts tss) ∧
      (∀ p ∈ ts :: tss, Holds n p) ∧ readAt n ts = e ∧ tss.map (readAt n) = xs.map made := by
  obtain ⟨ts, written, holds, same⟩ := first gap blank
  obtain ⟨g, each⟩ := exists_tokens fun x inside => rest x inside [' '] rfl
  have apart : ∀ rest, Apart ((sign op [' ']).gap ++ (sign op [' ']).lexeme ++ rest) :=
    fun _ => apart_cons rfl _
  have heads : ∀ x ∈ xs, ∀ rest, (sign op [' ']).Heads (textBehind (g x) ++ rest) := by
    intro x inside rest
    rw [(each x inside).1.covers]
    exact heads_sign rfl spelled fun _ c _ => pairKind?_of_seals (d := ' ') rfl c
  have parts : ∀ p ∈ ts :: xs.map g, Holds n p :=
    List.forall_mem_cons.mpr ⟨holds, List.forall_mem_map.mpr fun x inside => (each x inside).2.1⟩
  have others : xs.map (readAt n ∘ g) = xs.map made :=
    List.map_congr_left fun x inside => (each x inside).2.2
  refine ⟨ts, xs.map g, written.joined (fun x inside => (each x inside).1) apart heads, parts, same, ?_⟩
  rw [List.map_map, others]

/-- Two operands or more, where a level divides at their operator and the next one reads them. -/
theorem divided (make : Expr → List Expr → Expr) (spelled : op.sign ≠ [])
    (shown : ∀ {first rest}, (∀ p ∈ first :: rest, Holds n p) → Holds m (joined (sign op [' ']) first rest))
    (read : ∀ {first second rest}, (∀ p ∈ first :: second :: rest, Holds n p) →
      readAt m (joined (sign op [' ']) first (second :: rest)) =
        make (readAt n first) ((second :: rest).map (readAt n)))
    (some : xs ≠ []) (first : Reads n cs e) (rest : ∀ x ∈ xs, Reads n (f x) (made x)) :
    Reads m (cs ++ xs.flatMap fun x => spaced op (f x)) (make e (xs.map made)) := by
  intro gap blank
  obtain ⟨ts, tss, written, holds, rfl, same⟩ := operands op spelled first rest blank
  cases tss with
  | nil => exact absurd (List.map_eq_nil_iff.mp same.symm) some
  | cons second more =>
    rw [← same]
    exact ⟨_, written, shown holds, read holds⟩

theorem either (some : xs ≠ []) (first : Reads 1 cs e)
    (rest : ∀ x ∈ xs, Reads 1 (f x) (made x)) :
    Reads 0 (cs ++ xs.flatMap fun x => spaced .or (f x)) (.either e (xs.map made)) := by
  refine divided .either (by decide) (fun holds => ?_) (fun holds => readAt_either rfl holds) some first rest
  exact holds_joined rfl (by decide) (by decide) (by decide) holds fun three => absurd three (by decide)

theorem both (some : xs ≠ []) (first : Reads 2 cs e)
    (rest : ∀ x ∈ xs, Reads 2 (f x) (made x)) :
    Reads 1 (cs ++ xs.flatMap fun x => spaced .and (f x)) (.both e (xs.map made)) := by
  refine divided .both (by decide) (fun holds => ?_) (fun holds => readAt_both rfl holds) some first rest
  exact holds_joined rfl (by decide) (by decide) (by decide) holds fun three => absurd three (by decide)

theorem concat (some : xs ≠ []) (first : Reads 6 cs e)
    (rest : ∀ x ∈ xs, Reads 6 (f x) (made x)) :
    Reads 5 (cs ++ xs.flatMap fun x => spaced .plus (f x)) (.concat (e :: xs.map made)) := by
  refine divided (fun e es => .concat (e :: es)) (by decide) (fun holds => ?_)
    (fun holds => readAt_concat rfl holds) some first rest
  exact holds_joined rfl (by decide) (by decide) (by decide) holds
    fun _ _ _ _ => isThenMark_of_other (by decide)

theorem compare (c : Comparison) (left : Reads (c.rank + 1) cs e) (right : Reads (c.rank + 1) ds e') :
    Reads c.rank (cs ++ spaced c.kind ds) (.compare c e e') := by
  intro gap blank
  have only : ∀ x ∈ [e'], Reads (c.rank + 1) ds (id x) := by simpa using right
  obtain ⟨ts, tss, written, holds, rfl, same⟩ := operands c.kind c.kind_spelled left only blank
  obtain ⟨us, rfl, rfl⟩ := List.map_eq_singleton_iff.mp same
  refine ⟨_, by simpa using written, ?_, readAt_compare c rfl holds⟩
  exact holds_joined c.kind_neutral c.kind_other.2 (by simp [c.kind_rank]) (Nat.le_succ _) holds
    fun _ _ _ _ => isThenMark_of_other c.kind_other.1

theorem not (reads : Reads 6 cs e) : Reads 6 ('!' :: cs) (.not e) := by
  intro gap blank
  obtain ⟨ts, written, holds, rfl⟩ := reads [] rfl
  refine ⟨sign .not gap :: ts, ⟨⟨_, _, rfl, by decide, by decide⟩, ?_, fun rest after => ?_⟩,
    holds_not rfl holds, readAt_not rfl holds⟩
  · simp [written.covers, Kind.sign]
  · refine ⟨heads_sign blank (by decide) fun _ c inside => ?_, written.legible rest after⟩
    exact written.pair? (.inl (by simpa [Kind.sign] using inside)) rest

theorem choose {as bs cs : List Char} {a b c : Expr} (condition : Reads 2 as a) (yes : Reads 2 bs b)
    (no : Reads 2 cs c) :
    Reads 2 (as ++ ("?then(".toList ++ bs ++ [',', ' '] ++ cs ++ [')'])) (.choose a b c) := by
  intro gap blank
  obtain ⟨ts, given, holds, rfl⟩ := condition gap blank
  obtain ⟨us, written, holds_, rfl⟩ := yes [] rfl
  obtain ⟨vs, written', holds', rfl⟩ := no [' '] rfl
  refine ⟨chosen ts us vs, ⟨?_, ?_, fun rest _ => ?_⟩,
    holds_chosen holds holds_.nested holds'.nested, readAt_chosen given.solid holds holds_ holds'⟩
  · obtain ⟨d, more, rfl, others⟩ := given.begins
    exact ⟨d, _, rfl, others⟩
  · simp [chosen, textBehind_append, given.covers, written.covers, written'.covers, Kind.sign]
  · exact legible_chosen (fun _ => given.legible _ (apart_cons rfl _))
      (fun _ => written.legible _ (apart_cons rfl _)) fun _ => written'.legible _ (apart_cons rfl _)

end Reads

/-- A text that is read as this stage behind a question mark. -/
def ReadsStage (cs : List Char) (s : Stage) : Prop :=
  ∃ ts, Written [] cs ts ∧ Holds 8 ts ∧ stageOf ts = s ∧
    ∀ more, isThenMark (sign .question [] :: (ts ++ more)) = false

theorem Reads.chain {cs : List Char} {e : Expr} {α : Type} {ss : List α} {f : α → List Char}
    {made : α → Stage} (some : ss ≠ []) (base : Reads 8 cs e)
    (stages : ∀ s ∈ ss, ReadsStage (f s) (made s)) :
    Reads 7 (cs ++ ss.flatMap fun s => '?' :: f s) (.chain e (ss.map made)) := by
  intro gap blank
  obtain ⟨ts, written, holds, rfl⟩ := base gap blank
  obtain ⟨g, each⟩ := exists_tokens stages
  have heads : ∀ s ∈ ss, ∀ rest, (sign .question []).Heads (textBehind (g s) ++ rest) := by
    intro s inside rest
    refine heads_sign rfl (by decide) fun _ c mark => ?_
    exact (each s inside).1.pair? (.inr (by simpa [Kind.sign] using mark)) rest
  have apart : ∀ rest, Apart ((sign .question []).gap ++ (sign .question []).lexeme ++ rest) :=
    fun _ => apart_cons rfl _
  have parts : ∀ p ∈ ts :: ss.map g, Holds 8 p :=
    List.forall_mem_cons.mpr ⟨holds, List.forall_mem_map.mpr fun s inside => (each s inside).2.1⟩
  have plain : ∀ p ∈ ss.map g, ∀ more, isThenMark (sign .question [] :: (p ++ more)) = false :=
    List.forall_mem_map.mpr fun s inside => (each s inside).2.2.2
  have whole : Holds 7 (joined (sign .question []) ts (ss.map g)) :=
    holds_joined rfl (by decide) (by decide) (by decide) parts fun _ => plain
  have same : (ss.map g).map stageOf = ss.map made :=
    List.map_map.trans (List.map_congr_left fun s inside => (each s inside).2.2.1)
  refine ⟨_, written.joined (fun s inside => (each s inside).1) apart heads, whole, ?_⟩
  cases ss with
  | nil => exact absurd rfl some
  | cons second more =>
    rw [List.map_cons] at parts whole same ⊢
    rw [readAt_chain rfl written.solid parts whole, same, holds.readAt_eq (Nat.zero_le 8)]

/-- A text that is one word. -/
def IsWord (s : String) : Prop := tokenize s.toList = .ok ⟨[⟨.word, [], s.toList⟩], []⟩

/-- A text that may stand between single quotes. -/
structure Quotable (s : String) : Prop where
  unquoted : '\'' ∉ s.toList
  closed : s.toList.getLast? ≠ some '\\'

instance (s : String) : Decidable (Quotable s) :=
  decidable_of_iff ('\'' ∉ s.toList ∧ s.toList.getLast? ≠ some '\\')
    ⟨fun ⟨unquoted, closed⟩ => ⟨unquoted, closed⟩, fun ⟨unquoted, closed⟩ => ⟨unquoted, closed⟩⟩

theorem quotedLength?_of_unquoted {quote before : Char} {cs : List Char} (rest : List Char)
    (unquoted : quote ∉ cs) (closed : cs.getLast?.getD before ≠ '\\') :
    quotedLength? quote before (cs ++ quote :: rest) = some (cs.length + 1) := by
  induction cs generalizing before with
  | nil =>
    have closed : before ≠ '\\' := closed
    simp [quotedLength?, closed]
  | cons c cs ih =>
    rw [List.mem_cons, not_or] at unquoted
    have later : cs.getLast?.getD c ≠ '\\' := by simpa [List.getLast?_cons] using closed
    have other : (c == quote) = false := by simpa using Ne.symm unquoted.1
    simp [quotedLength?, other, ih unquoted.2 later]

/-- A text between two quotes. -/
def inQuotes (quote : Char) (s : String) : List Char := quote :: s.toList ++ [quote]

/-- A text that may stand between two quotes of a kind. -/
structure QuotableBy (quote : Char) (s : String) : Prop where
  marks : isQuote quote = true
  unquoted : quote ∉ s.toList
  closed : s.toList.getLast? ≠ some '\\'

section Quotes

variable {quote : Char} {s : String} {gap : List Char}

theorem heads_inQuotes (quotable : QuotableBy quote s) (blank : Text.allBlank gap = true)
    (rest : List Char) : Token.Heads ⟨.string, gap, inQuotes quote s⟩ rest := by
  obtain ⟨marks, unquoted, closed⟩ := quotable
  have solid : Text.isBlank quote = false ∧ quote ≠ '\\' := by
    simp only [isQuote, Bool.or_eq_true, beq_iff_eq] at marks
    rcases marks with rfl | rfl <;> decide
  refine ⟨blank, quote, s.toList ++ [quote], rfl, solid.1, extent?_eq_some.mpr (.string marks ?_)⟩
  rw [List.append_assoc, List.length_append]
  refine quotedLength?_of_unquoted rest unquoted ?_
  cases last : s.toList.getLast? with
  | none => exact solid.2
  | some d =>
    rw [last] at closed
    simpa using closed

theorem written_inQuotes (quotable : QuotableBy quote s) (blank : Text.allBlank gap = true) :
    Written gap (inQuotes quote s) [⟨.string, gap, inQuotes quote s⟩] where
  begins := by
    have marks := quotable.marks
    refine ⟨_, _, rfl, ?_, ?_⟩ <;> rintro rfl <;> cases marks
  covers := by simp
  legible rest _ := ⟨heads_inQuotes quotable blank _, trivial⟩

theorem unquoted?_inQuotes (marks : isQuote quote = true) (s : String) :
    unquoted? (inQuotes quote s) = some s.toList := by
  have last : (s.toList ++ [quote]).getLast? = some quote := List.getLast?_concat
  have front : (s.toList ++ [quote]).dropLast = s.toList := List.dropLast_concat
  unfold unquoted? inQuotes
  split
  · rename_i nothing
    cases nothing
  · rename_i single
    simp at single
  · rename_i same
    cases same
    simp [marks, last, front]

theorem Reads.inQuotes (quotable : QuotableBy quote s) :
    Reads 8 (inQuotes quote s) (.literal (.text s)) := by
  intro gap blank
  refine ⟨_, written_inQuotes quotable blank, holds_leaf (.inr rfl), (readAt_leaf (.inr rfl)).trans ?_⟩
  rw [leaf, unquoted?_inQuotes quotable.marks]
  exact congrArg _ (congrArg _ String.ofList_toList)

end Quotes

/-- A text between single quotes. -/
def quoted (s : String) : List Char := '\'' :: s.toList ++ ['\'']

theorem Quotable.single {s : String} (quotable : Quotable s) : QuotableBy '\'' s :=
  ⟨rfl, quotable.unquoted, quotable.closed⟩

theorem written_quoted {s : String} {gap : List Char} (quotable : Quotable s)
    (blank : Text.allBlank gap = true) : Written gap (quoted s) [⟨.string, gap, quoted s⟩] :=
  written_inQuotes quotable.single blank

theorem unquoted?_quoted (s : String) : unquoted? (quoted s) = some s.toList :=
  unquoted?_inQuotes rfl s

/-- What the first character of a word is, and that the rest goes on to the end. -/
structure Continues (c : Char) (cs : List Char) : Prop where
  plain : isQuote c = false
  alone : pairKind? c cs.head? = none
  other : singleKind? c = none
  whole : wordLength cs = cs.length

instance (c : Char) (cs : List Char) : Decidable (Continues c cs) :=
  decidable_of_iff (isQuote c = false ∧ pairKind? c cs.head? = none ∧ singleKind? c = none ∧
      wordLength cs = cs.length)
    ⟨fun ⟨plain, alone, other, whole⟩ => ⟨plain, alone, other, whole⟩,
      fun ⟨plain, alone, other, whole⟩ => ⟨plain, alone, other, whole⟩⟩

theorem Continues.extent? {c : Char} {cs rest : List Char} (continues : Continues c cs)
    (apart : Apart rest) : extent? c (cs ++ rest) = some (.word, cs.length) := by
  obtain ⟨plain, alone, other, whole⟩ := continues
  rw [extent?_eq_some, ← whole]
  cases rest with
  | nil =>
    rw [List.append_nil]
    exact .word plain alone other
  | cons d more =>
    have ends := apart d rfl
    have same : wordLength (cs ++ d :: more) = wordLength cs := wordLength_append ends
    rw [← same]
    exact .word plain ((head?_append_of_endsWords ends other).trans alone) other

theorem isWord_iff {s : String} : IsWord s ↔
    ∃ c cs, s.toList = c :: cs ∧ Text.isBlank c = false ∧ Continues c cs := by
  rw [IsWord, tokenize_eq_ok_iff]
  constructor
  · rintro ⟨-, ⟨⟨-, c, cs, lexeme, ink, extent⟩, -⟩, -⟩
    refine ⟨c, cs, lexeme, ink, ?_⟩
    have reaches := extent?_eq_some.mp extent
    rw [textBehind_nil, List.append_nil, List.append_nil] at reaches
    generalize length : cs.length = n at reaches
    cases reaches with
    | pair _ pair =>
      unfold pairKind? at pair
      split at pair <;> cases pair
    | single _ _ single =>
      unfold singleKind? at single
      split at single <;> cases single
    | word plain alone other => exact ⟨plain, alone, other, length.symm⟩
  · rintro ⟨c, cs, lexeme, ink, continues⟩
    refine ⟨by simp, ⟨⟨rfl, c, cs, lexeme, ink, ?_⟩, trivial⟩, rfl⟩
    exact continues.extent? apart_nil

theorem isWord_cons {s : String} {c : Char} {cs : List Char} (text : s.toList = c :: cs) :
    IsWord s ↔ Text.isBlank c = false ∧ Continues c cs := by
  constructor
  · intro word
    obtain ⟨d, ds, same, ink, continues⟩ := isWord_iff.mp word
    cases text.symm.trans same
    exact ⟨ink, continues⟩
  · rintro ⟨ink, continues⟩
    exact isWord_iff.mpr ⟨c, cs, text, ink, continues⟩

instance (s : String) : Decidable (IsWord s) :=
  match text : s.toList with
  | [] => .isFalse (by simp [isWord_iff, text])
  | _ :: _ => decidable_of_iff _ (isWord_cons text).symm

theorem written_word {s : String} {gap : List Char} (word : IsWord s)
    (blank : Text.allBlank gap = true) : Written gap s.toList [⟨.word, gap, s.toList⟩] := by
  obtain ⟨c, cs, lexeme, ink, continues⟩ := isWord_iff.mp word
  refine ⟨⟨c, cs, lexeme, ?_, ?_⟩, by simp, fun rest apart => ⟨⟨blank, c, cs, lexeme, ink, ?_⟩, trivial⟩⟩
  · rintro rfl
    cases continues.other
  · rintro rfl
    cases continues.other
  · exact continues.extent? apart

namespace Reads

theorem word {s : String} (word : IsWord s) : Reads 8 s.toList (leaf s.toList) := by
  intro gap blank
  exact ⟨_, written_word word blank, holds_leaf (.inl rfl), readAt_leaf (.inl rfl)⟩

theorem text {s : String} (quotable : Quotable s) : Reads 8 (quoted s) (.literal (.text s)) :=
  .inQuotes quotable.single

theorem exist {s : String} (word : IsWord s) : Reads 6 (s.toList ++ ['?', '?']) (.exist s) := by
  intro gap blank
  have mark : textBehind [sign .exist []] = ['?', '?'] := rfl
  have written := (written_word word blank).append mark (apart_cons rfl _)
    fun rest _ => Legible.cons rfl (by decide) rfl trivial
  refine ⟨_, written, holds_exist rfl rfl, (readAt_exist rfl rfl).trans ?_⟩
  exact congrArg _ String.ofList_toList

end Reads

section Calls

variable {name : String} {us : List Token} {cs gap : List Char}

/-- A word with an argument list right behind it, white space in front of its end. -/
def spacedCall (name : String) (us : List Token) (gap : List Char) : List Token :=
  ⟨.word, [], name.toList⟩ :: (sign .leftParen [] :: us ++ [sign .rightParen gap])

/-- A word with an argument list right behind it. -/
def call (name : String) (us : List Token) : List Token :=
  ⟨.word, [], name.toList⟩ :: (sign .leftParen [] :: us ++ [sign .rightParen []])

theorem spacedCall_nil (name : String) (us : List Token) : spacedCall name us [] = call name us := rfl

theorem holds_spacedCall (inside : Nested us) (gap : List Char) : Holds 8 (spacedCall name us gap) := by
  have surface_ : surface 0 (spacedCall name us gap) = [.word, .leftParen, .rightParen] := by
    rw [spacedCall, Nested.surface_cons rfl, Nested.surface_enclose rfl rfl inside]
    rfl
  refine ⟨Nested.cons rfl (inside.enclose rfl rfl), fun k shown => ?_, fun _ => lastThen_of_hidden ?_⟩
  · rw [surface_] at shown
    simp only [List.mem_cons, List.not_mem_nil, or_false] at shown
    rcases shown with rfl | rfl | rfl <;> decide
  · rw [surface_]
    decide

theorem written_spacedCall (word : IsWord name) (covers : textBehind us = cs)
    (legible : ∀ rest, Legible us (gap ++ ')' :: rest)) (blank : Text.allBlank gap = true) :
    Written [] (name.toList ++ '(' :: (cs ++ (gap ++ [')']))) (spacedCall name us gap) := by
  refine (written_word word rfl).append ?_ (apart_cons rfl _) fun rest _ => ?_
  · simp [textBehind_append, covers, Kind.sign]
  · refine Legible.cons rfl (by decide) rfl
      (Legible.append ?_ (Legible.cons blank (by decide) rfl trivial))
    simpa [Kind.sign] using legible rest

theorem isThenMark_of_word {t : Token} {more : List Token} (other : t.lexeme ≠ "then".toList) :
    isThenMark (sign .question [] :: t :: more) = false := by
  cases more with
  | nil => rfl
  | cons u more =>
    have other : (t.lexeme == "then".toList) = false := by simpa using other
    simp only [isThenMark, other, Bool.and_false, Bool.false_and]

theorem readsStage_spacedCall {s : Stage} (word : IsWord name) (other : name.toList ≠ "then".toList)
    (covers : textBehind us = cs) (legible : ∀ rest, Legible us (gap ++ ')' :: rest))
    (blank : Text.allBlank gap = true) (inside : Nested us) (read : stageOf (spacedCall name us gap) = s) :
    ReadsStage (name.toList ++ '(' :: (cs ++ (gap ++ [')']))) s :=
  ⟨_, written_spacedCall word covers legible blank, holds_spacedCall inside gap, read,
    fun _ => isThenMark_of_word other⟩

theorem readsStage_call {s : Stage} (word : IsWord name) (other : name.toList ≠ "then".toList)
    (covers : textBehind us = cs) (legible : ∀ rest, Legible us (')' :: rest)) (inside : Nested us)
    (read : stageOf (call name us) = s) : ReadsStage (name.toList ++ '(' :: (cs ++ [')'])) s :=
  readsStage_spacedCall word other covers legible rfl inside read

theorem readsStage_word {s : Stage} (word : IsWord name) (other : name.toList ≠ "then".toList)
    (read : stageOf [⟨.word, [], name.toList⟩] = s) : ReadsStage name.toList s :=
  ⟨_, written_word word rfl, holds_leaf (.inl rfl), read, fun _ => isThenMark_of_word other⟩

theorem apart_of_blank (blank : Text.allBlank gap = true) (rest : List Char) :
    Apart (gap ++ ')' :: rest) := by
  cases gap with
  | nil => exact apart_cons rfl rest
  | cons c gap =>
    have space : Text.isBlank c = true := (List.all_eq_true.mp blank) c List.mem_cons_self
    refine apart_cons ?_ _
    have other : c ≠ '>' ∧ c ≠ '\x7b' := by
      constructor <;> rintro rfl <;> cases space
    simp [endsWords, space, other]

theorem readsStage_quoted {s : String} {stage : Stage} {front : List Char} (word : IsWord name)
    (other : name.toList ≠ "then".toList) (quotable : Quotable s) (before : Text.allBlank front = true)
    (after : Text.allBlank gap = true)
    (read : stageOf (spacedCall name [⟨.string, front, quoted s⟩] gap) = stage) :
    ReadsStage (name.toList ++ '(' :: (front ++ quoted s ++ (gap ++ [')']))) stage := by
  have written : Written front (quoted s) _ := written_quoted quotable before
  exact readsStage_spacedCall word other written.covers
    (fun rest => written.legible _ (apart_of_blank after rest)) after (holds_leaf (.inr rfl)).nested read

theorem raw_spacedCall (name : String) (us : List Token) (gap : List Char) :
    raw (spacedCall name us gap) = name.toList ++ '(' :: (textBehind us ++ (gap ++ [')'])) := by
  simp [raw, spacedCall, textBehind_append, Kind.sign]

theorem isCall_spacedCall (name : String) (us : List Token) (gap : List Char) :
    isCall name (raw (spacedCall name us gap)) = true := by
  rw [raw_spacedCall, isCall]
  simp [List.getLast?_append, List.getLast?_cons]

theorem raw_call (name : String) (us : List Token) :
    raw (call name us) = name.toList ++ '(' :: (textBehind us ++ [')']) := raw_spacedCall name us []

theorem isCall_call (name : String) (us : List Token) : isCall name (raw (call name us)) = true :=
  isCall_spacedCall name us []

theorem argument_concat (us : List Token) (last : Token) :
    argument (us ++ [last]) = textBehind us ++ last.gap := by
  induction us with
  | nil => rfl
  | cons u us ih =>
    obtain ⟨v, vs, more⟩ := List.exists_cons_of_ne_nil (List.concat_ne_nil last us)
    rw [textBehind_cons, List.cons_append, List.append_assoc, ← ih, more]
    rfl

/-- The argument of a call is its text, with all white space that stands between the parentheses. -/
theorem argument_spacedCall (name : String) (us : List Token) (gap : List Char) :
    argument ((spacedCall name us gap).drop 2) = textBehind us ++ gap :=
  argument_concat us (sign .rightParen gap)

theorem stageOf_join_spaced (us : List Token) (gap : List Char) :
    stageOf (spacedCall "join" us gap) = .join (separator (textBehind us ++ gap)) := by
  simp only [stageOf, stageForm, isCall_spacedCall, argument_spacedCall]
  simp [raw_spacedCall]

theorem stageOf_split_spaced (us : List Token) (gap : List Char) :
    stageOf (spacedCall "split" us gap) = .split (separator (textBehind us ++ gap)) := by
  simp only [stageOf, stageForm, isCall_spacedCall, argument_spacedCall]
  simp [raw_spacedCall, isCall]

theorem separator_quoted (s : String) :
    separator (textBehind [⟨.string, [], quoted s⟩] ++ []) = s := by
  simp [separator, unquoted?_quoted]

theorem stageOf_join (s : String) : stageOf (call "join" [⟨.string, [], quoted s⟩]) = .join s := by
  rw [← spacedCall_nil, stageOf_join_spaced, separator_quoted]

theorem stageOf_split (s : String) : stageOf (call "split" [⟨.string, [], quoted s⟩]) = .split s := by
  rw [← spacedCall_nil, stageOf_split_spaced, separator_quoted]

theorem mappingForm?_of_parts {ts item body : List Token} {more : List (List Token)}
    (parts : Expression.split .arrow 0 (ts.drop 2).dropLast = (item, body :: more)) :
    ∃ b, mappingForm? ts = some (rawText item, b) ∧ b.val = body := by
  unfold mappingForm?
  split
  · rename_i parts'
    cases parts.symm.trans parts'
    exact ⟨_, rfl, rfl⟩
  · rename_i none
    cases parts.symm.trans none

theorem stageOf_map {item body : List Token} (nested : ∀ p ∈ [item, body], Nested p)
    (hidden : ∀ p ∈ [item, body], .arrow ∉ surface 0 p) :
    stageOf (call "map" (item ++ sign .arrow [' '] :: body)) = .map (rawText item) (whole body) := by
  have arguments : ((call "map" (item ++ sign .arrow [' '] :: body)).drop 2).dropLast =
      item ++ sign .arrow [' '] :: body := List.dropLast_concat
  have parts : Expression.split (sign .arrow [' ']).kind 0 (joined (sign .arrow [' ']) item [body]) =
      (item, [body]) := split_joined rfl nested hidden
  rw [show joined (sign .arrow [' ']) item [body] = item ++ sign .arrow [' '] :: body by
    simp [joined], ← arguments] at parts
  obtain ⟨b, found, same⟩ := mappingForm?_of_parts parts
  simp only [stageOf, stageForm, isCall_call, found]
  simp [raw_call, isCall, same]

end Calls

namespace ReadsStage

variable {cs : List Char} {s : String} {e : Expr}

theorem string : ReadsStage "string".toList .string :=
  readsStage_word (by decide) (by decide) rfl

theorem size : ReadsStage "size".toList .size :=
  readsStage_word (by decide) (by decide) rfl

theorem hasContent : ReadsStage "has_content".toList .hasContent :=
  readsStage_word (by decide) (by decide) rfl

theorem join (quotable : Quotable s) :
    ReadsStage ("join".toList ++ '(' :: (quoted s ++ [')'])) (.join s) :=
  readsStage_quoted (by decide) (by decide) quotable rfl rfl (stageOf_join s)

theorem split (quotable : Quotable s) :
    ReadsStage ("split".toList ++ '(' :: (quoted s ++ [')'])) (.split s) :=
  readsStage_quoted (by decide) (by decide) quotable rfl rfl (stageOf_split s)

theorem map (word : IsWord s) (body : Reads 0 cs e) :
    ReadsStage ("map".toList ++ '(' :: (s.toList ++ spaced .arrow cs ++ [')'])) (.map s e) := by
  obtain ⟨ts, written, holds, rfl⟩ := body [' '] rfl
  have item : Holds 8 [⟨.word, [], s.toList⟩] := holds_leaf (.inl rfl)
  have arrow : textBehind (sign .arrow [' '] :: ts) = spaced .arrow cs := by
    rw [textBehind_cons, written.covers]
    rfl
  have first : Written [] s.toList _ := written_word word rfl
  have inside := first.append arrow (apart_cons rfl _) fun rest apart =>
    Legible.cons rfl (by decide) rfl (written.legible rest apart)
  have nested : ∀ p ∈ [[⟨.word, [], s.toList⟩], ts], Nested p := by
    simpa using ⟨item.nested, holds.nested⟩
  have hidden : ∀ p ∈ [[⟨.word, [], s.toList⟩], ts], .arrow ∉ surface 0 p := by
    simpa using ⟨item.hidden (k := .arrow) (by decide), holds.hidden (k := .arrow) (by decide)⟩
  refine readsStage_call (by decide) (by decide) inside.covers
    (fun _ => inside.legible _ (apart_cons rfl _)) (item.nested.append (holds.nested.cons rfl)) ?_
  refine (stageOf_map nested hidden).trans ?_
  rw [whole_eq written.solid]
  simp [rawText, raw, readAt]

end ReadsStage

/-- Texts with a comma and a space between each two of them. -/
def listed : List (List Char) → List Char
  | [] => []
  | cs :: rest => cs ++ rest.flatMap ([',', ' '] ++ ·)

section Object

variable {cs : List Char} {k : String} {e : Expr} {ps : List (String × Expr)}
  {f : String × Expr → List Char} {made : String × Expr → Expr}

/-- Name and value of a property, as the parser finds them. -/
def propertyOf (ts : List Token) : Option (String × Expr) :=
  (cut .colon 0 ts).map fun (name, value) => (propertyName name, whole value)

theorem exists_property (gap : List Char) (blank : Text.allBlank gap = true) (name : Quotable k)
    (value : Reads 0 cs e) :
    ∃ ts, Written gap (quoted k ++ ([':', ' '] ++ cs)) ts ∧ Nested ts ∧ .comma ∉ surface 0 ts ∧
      propertyOf ts = some (k, e) := by
  obtain ⟨vs, written, holds, rfl⟩ := value [' '] rfl
  have covers : textBehind (sign .colon [] :: vs) = [':', ' '] ++ cs := by
    rw [textBehind_cons, written.covers]
    rfl
  refine ⟨_, (written_quoted name blank).append covers (apart_cons rfl _) fun rest apart =>
    Legible.cons rfl (by decide) rfl (written.legible rest apart), ?_, ?_, ?_⟩
  · exact Nested.cons rfl (holds.nested.cons rfl)
  · rw [List.singleton_append, Nested.surface_cons rfl, Nested.surface_cons rfl]
    simpa using holds.hidden (k := .comma) (by decide)
  · have parts : cut .colon 0 ([⟨.string, gap, quoted k⟩] ++ sign .colon [] :: vs) =
        some ([⟨.string, gap, quoted k⟩], vs) := rfl
    rw [propertyOf, parts]
    simp [propertyName, raw, unquoted?_quoted, whole_eq written.solid, readAt]

theorem filterMap_eq_map {α β : Type} {h : α → Option β} {make : α → β} {xs : List α}
    (each : ∀ x ∈ xs, h x = some (make x)) : xs.filterMap h = xs.map make := by
  induction xs with
  | nil => rfl
  | cons x xs ih =>
    rw [List.filterMap_cons, each x List.mem_cons_self]
    exact congrArg (make x :: ·) (ih fun y inside => each y (List.mem_cons_of_mem x inside))

/-- The properties of an object between its braces. -/
theorem exists_properties (names : ∀ p ∈ ps, Quotable p.1)
    (values : ∀ p ∈ ps, Reads 0 (f p) (made p)) :
    ∃ us, textBehind us = listed (ps.map fun p => quoted p.1 ++ ([':', ' '] ++ f p)) ∧
      (∀ rest, Legible us ('\x7d' :: rest)) ∧ Nested us ∧
      ((split .comma 0 us).1 :: (split .comma 0 us).2).filterMap propertyOf =
        ps.map fun p => (p.1, made p) := by
  cases ps with
  | nil => exact ⟨[], rfl, fun _ => trivial, .nil, rfl⟩
  | cons p rest =>
    obtain ⟨ts, first, nested, hidden, read⟩ := exists_property [] rfl (names p List.mem_cons_self)
      (values p List.mem_cons_self)
    obtain ⟨g, each⟩ := exists_tokens fun q (inside : q ∈ rest) => exists_property [' '] rfl
      (names q (List.mem_cons_of_mem p inside)) (values q (List.mem_cons_of_mem p inside))
    have apart : ∀ more, Apart ((sign .comma []).gap ++ (sign .comma []).lexeme ++ more) :=
      fun _ => apart_cons rfl _
    have all := first.joined (fun q inside => (each q inside).1) apart
      fun _ _ _ => heads_closed _ rfl (by decide) rfl
    have nested_ : ∀ us ∈ ts :: rest.map g, Nested us :=
      List.forall_mem_cons.mpr ⟨nested, List.forall_mem_map.mpr fun q inside => (each q inside).2.1⟩
    have hidden_ : ∀ us ∈ ts :: rest.map g, (sign .comma []).kind ∉ surface 0 us :=
      List.forall_mem_cons.mpr ⟨hidden, List.forall_mem_map.mpr fun q inside => (each q inside).2.2.1⟩
    have divided : split .comma 0 (joined (sign .comma []) ts (rest.map g)) = (ts, rest.map g) :=
      split_joined rfl nested_ hidden_
    have others : rest.filterMap (propertyOf ∘ g) = rest.map fun p => (p.1, made p) :=
      filterMap_eq_map fun q inside => (each q inside).2.2.2
    refine ⟨joined (sign .comma []) ts (rest.map g), ?_, fun more => all.legible _ (apart_cons rfl _),
      nested_joined rfl nested_, ?_⟩
    · simpa [listed, List.flatMap_map, Kind.sign] using all.covers
    · rw [divided, List.filterMap_cons, read, List.filterMap_map, others, List.map_cons]

theorem Reads.object (names : ∀ p ∈ ps, Quotable p.1)
    (values : ∀ p ∈ ps, Reads 0 (f p) (made p)) :
    Reads 8 ('\x7b' :: (listed (ps.map fun p => quoted p.1 ++ ([':', ' '] ++ f p)) ++ ['\x7d']))
      (.object (ps.map fun p => (p.1, made p))) := by
  intro gap blank
  obtain ⟨us, covers, legible, nested, found⟩ := exists_properties names values
  refine ⟨sign .leftBrace gap :: us ++ [sign .rightBrace []], ⟨⟨_, _, rfl, by decide, by decide⟩, ?_,
    fun rest _ => ?_⟩, holds_enclose rfl rfl nested, ?_⟩
  · simp [textBehind_append, covers, Kind.sign]
  · exact Legible.cons blank (by decide) rfl
      (Legible.append (legible rest) (Legible.cons rfl (by decide) rfl trivial))
  · rw [← found]
    exact operand_of_braces rfl (group?_enclose rfl rfl nested)

end Object

end Walkthrough.Expression
