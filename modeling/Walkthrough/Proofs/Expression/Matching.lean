import Walkthrough.Proofs.Expression.Nesting

/-! Token lists whose brackets match by kind. Every opener waits for a closer of its own, and closers
come in the order in which they are waited for. Such a list is well nested, and where the parser
divides it, at what is exposed or at the ends of a group, the divisions match by kind as well. -/
namespace Walkthrough.Expression

/-- The closer that belongs to an opener. -/
def Kind.closer? : Kind → Option Kind
  | .leftParen => some .rightParen
  | .leftBrace | .dollarBrace => some .rightBrace
  | .leftBracket => some .rightBracket
  | _ => none

/-- The closers that are waited for behind a token, the next one first; none if the token closes
another bracket than the one that waits. -/
def await? (waiting : List Kind) (t : Token) : Option (List Kind) :=
  match t.kind.closer? with
  | some closer => some (closer :: waiting)
  | none =>
    if t.kind.isCloser then
      match waiting with
      | closer :: rest => if t.kind = closer then some rest else none
      | [] => none
    else some waiting

def awaited? (waiting : List Kind) (ts : List Token) : Option (List Kind) :=
  ts.foldlM await? waiting

/-- Every bracket is closed by a bracket of its own kind. -/
def Matched (ts : List Token) : Prop := awaited? [] ts = some []

instance (ts : List Token) : Decidable (Matched ts) := inferInstanceAs (Decidable (_ = _))

/-- How many brackets that this closer closes are open behind the tokens. -/
def depthOf (closer : Kind) (ts : List Token) : Int :=
  ts.countP (fun t => t.kind.closer? == some closer) - ts.countP (fun t => t.kind == closer)

section Awaited

variable {t : Token} {ts us : List Token} {waiting next after base : List Kind} {closer : Kind}
  {n : Nat}

/-- What a token does to the closers that are waited for. -/
inductive Awaits (t : Token) : List Kind → List Kind → Prop where
  | opens {waiting : List Kind} {closer : Kind} (opening : t.kind.closer? = some closer) :
      Awaits t waiting (closer :: waiting)
  | closes {waiting : List Kind} (closing : t.kind.isCloser = true) :
      Awaits t (t.kind :: waiting) waiting
  | stays {waiting : List Kind} (neutral : t.kind.isNeutral = true) : Awaits t waiting waiting

theorem Kind.closer?_eq_none_iff {k : Kind} : k.closer? = none ↔ k.isOpener = false := by
  cases k <;> decide

theorem Kind.isOpener_of_closer? {k : Kind} (opening : k.closer? = some closer) :
    k.isOpener = true ∧ closer.isCloser = true := by
  cases k <;> cases opening <;> decide

theorem Kind.closer?_of_isCloser {k : Kind} (closing : k.isCloser = true) : k.closer? = none := by
  cases k <;> first | rfl | cases closing

theorem await?_eq_some : await? waiting t = some next ↔ Awaits t waiting next := by
  constructor
  · intro found
    unfold await? at found
    split at found
    · rename_i opening
      cases found
      exact .opens opening
    · rename_i other
      split at found
      · rename_i closing
        split at found
        · split at found
          · rename_i same
            cases found
            exact same ▸ .closes closing
          · cases found
        · cases found
      · rename_i open_
        cases found
        refine .stays ?_
        simp [Kind.isNeutral, Kind.closer?_eq_none_iff.mp other, open_]
  · intro awaits
    cases awaits with
    | opens opening => simp [await?, opening]
    | closes closing => simp [await?, Kind.closer?_of_isCloser closing, closing]
    | stays neutral =>
      simp only [Kind.isNeutral, Bool.and_eq_true, Bool.not_eq_true'] at neutral
      simp [await?, Kind.closer?_eq_none_iff.mpr neutral.1, neutral.2]

theorem awaited?_append :
    awaited? waiting (ts ++ us) = (awaited? waiting ts).bind fun after => awaited? after us :=
  List.foldlM_append

theorem awaited?_append_eq_some : awaited? waiting (ts ++ us) = some after ↔
    ∃ next, awaited? waiting ts = some next ∧ awaited? next us = some after := by
  rw [awaited?_append, Option.bind_eq_some_iff]

theorem awaited?_cons_eq_some : awaited? waiting (t :: ts) = some after ↔
    ∃ next, Awaits t waiting next ∧ awaited? next ts = some after := by
  simp only [awaited?, List.foldlM_cons, Option.bind_eq_bind, Option.bind_eq_some_iff, await?_eq_some]

/-- As many brackets are open as closers are waited for. -/
theorem height?_of_awaited (matching : awaited? waiting ts = some after) :
    height? Kind.isOpener Kind.isCloser waiting.length ts = some after.length := by
  induction ts generalizing waiting with
  | nil =>
    cases matching
    rfl
  | cons t ts ih =>
    obtain ⟨next, awaits, later⟩ := awaited?_cons_eq_some.mp matching
    have rest := ih later
    cases awaits with
    | opens opening => simpa [height?, Kind.isOpener_of_closer? opening] using rest
    | closes closing =>
      have other := Kind.closer?_eq_none_iff.mp (Kind.closer?_of_isCloser closing)
      simpa [height?, other, closing] using rest
    | stays neutral =>
      simp only [Kind.isNeutral, Bool.and_eq_true, Bool.not_eq_true'] at neutral
      simpa [height?, neutral] using rest

theorem depthAcross_of_awaited (matching : awaited? waiting ts = some after) :
    depthAcross waiting.length ts = after.length :=
  depthAcross_of_height (height?_of_awaited matching)

theorem waiting_eq_nil_of_exposed (neutral : t.kind.isNeutral = true)
    (shown : exposed waiting.length t = true) : waiting = [] := by
  simp only [Kind.isNeutral, Bool.and_eq_true, Bool.not_eq_true'] at neutral
  simp only [exposed, neutral, Bool.false_eq_true, ↓reduceIte, beq_iff_eq] at shown
  exact List.eq_nil_of_length_eq_zero (Int.ofNat_eq_zero.mp shown)

theorem depthOf_cons : depthOf closer (t :: ts) = depthOf closer ts +
    (if t.kind.closer? = some closer then 1 else 0) - if t.kind = closer then 1 else 0 := by
  simp only [depthOf, List.countP_cons, beq_iff_eq]
  split <;> split <;> omega

/-- As many brackets of a kind are open as closers of that kind are waited for. -/
theorem depthOf_of_awaited (closing : closer.isCloser = true)
    (matching : awaited? waiting ts = some after) :
    waiting.count closer + depthOf closer ts = after.count closer := by
  induction ts generalizing waiting with
  | nil =>
    cases matching
    simp [depthOf]
  | cons t ts ih =>
    obtain ⟨next, awaits, later⟩ := awaited?_cons_eq_some.mp matching
    have rest := ih later
    rw [depthOf_cons]
    cases awaits with
    | opens opening =>
      rename_i own
      have other : t.kind ≠ closer := by
        rintro rfl
        cases (Kind.closer?_of_isCloser closing).symm.trans opening
      simp only [opening, Option.some.injEq, if_neg other, List.count_cons, beq_iff_eq] at rest ⊢
      by_cases same : own = closer
      · rw [if_pos same] at rest ⊢
        omega
      · rw [if_neg same] at rest ⊢
        omega
    | closes here =>
      simp only [Kind.closer?_of_isCloser here, reduceCtorEq, ↓reduceIte, List.count_cons,
        beq_iff_eq]
      split <;> omega
    | stays neutral =>
      simp only [Kind.isNeutral, Bool.and_eq_true, Bool.not_eq_true'] at neutral
      have other : t.kind ≠ closer := by
        rintro rfl
        cases closing.symm.trans neutral.2
      simp only [Kind.closer?_eq_none_iff.mpr neutral.1, reduceCtorEq, ↓reduceIte, if_neg other]
      omega

/-- Tokens that open what they close leave alone what is waited for in front of them. -/
theorem awaited?_above (within : height? Kind.isOpener Kind.isCloser waiting.length ts = some n)
    (matching : awaited? (waiting ++ base) ts = some after) :
    ∃ next, next.length = n ∧ after = next ++ base ∧ awaited? waiting ts = some next := by
  induction ts generalizing waiting with
  | nil =>
    cases matching
    cases within
    exact ⟨waiting, rfl, rfl, rfl⟩
  | cons t ts ih =>
    obtain ⟨next, awaits, later⟩ := awaited?_cons_eq_some.mp matching
    -- the token awaits the closers that the tokens themselves wait for
    obtain ⟨own, rfl, awaits', within'⟩ : ∃ own, next = own ++ base ∧ Awaits t waiting own ∧
        height? Kind.isOpener Kind.isCloser own.length ts = some n := by
      simp only [height?] at within
      generalize whole : waiting ++ base = before at awaits
      cases awaits with
      | opens opening =>
        rename_i closer
        subst whole
        rw [if_pos (Kind.isOpener_of_closer? opening).1] at within
        exact ⟨closer :: waiting, rfl, .opens opening, within⟩
      | closes closing =>
        have other := Kind.closer?_eq_none_iff.mp (Kind.closer?_of_isCloser closing)
        rw [if_neg (by simp [other]), if_pos closing] at within
        cases waiting with
        | nil => cases within
        | cons closer waiting =>
          cases whole
          exact ⟨waiting, rfl, .closes closing, within⟩
      | stays neutral =>
        subst whole
        have plain := neutral
        simp only [Kind.isNeutral, Bool.and_eq_true, Bool.not_eq_true'] at plain
        simp only [plain, Bool.false_eq_true, ↓reduceIte] at within
        exact ⟨waiting, rfl, .stays neutral, within⟩
    obtain ⟨rest, length, same, whole⟩ := ih within' later
    exact ⟨rest, length, same, awaited?_cons_eq_some.mpr ⟨own, awaits', whole⟩⟩

theorem matched_of_nested (nested : Nested ts) (matching : awaited? waiting ts = some after) :
    after = waiting ∧ Matched ts := by
  have within : height? Kind.isOpener Kind.isCloser ([] : List Kind).length ts = some 0 := nested
  obtain ⟨next, length, rfl, whole⟩ := awaited?_above within matching
  cases List.eq_nil_of_length_eq_zero length
  exact ⟨rfl, whole⟩

end Awaited

namespace Matched

variable {t opener closer : Token} {ts us front back inside : List Token}

theorem of_cons (whole : Matched (t :: ts)) (neutral : t.kind.isNeutral = true) : Matched ts := by
  obtain ⟨next, awaits, later⟩ := awaited?_cons_eq_some.mp whole
  cases (await?_eq_some.mpr awaits).symm.trans (await?_eq_some.mpr (.stays neutral))
  exact later

theorem of_append (whole : Matched (ts ++ us)) (nested : Nested us) : Matched ts ∧ Matched us := by
  obtain ⟨next, left, right⟩ := awaited?_append_eq_some.mp whole
  obtain ⟨rfl, inner⟩ := matched_of_nested nested right
  exact ⟨left, inner⟩

/-- What stands before an exposed token, and what stands behind it. -/
theorem around (whole : Matched (front ++ t :: back)) (neutral : t.kind.isNeutral = true)
    (shown : exposed (depthAcross 0 front) t = true) : Matched front ∧ Matched back := by
  obtain ⟨next, left, right⟩ := awaited?_append_eq_some.mp whole
  have depth : depthAcross 0 front = next.length := depthAcross_of_awaited left
  rw [depth] at shown
  cases waiting_eq_nil_of_exposed neutral shown
  exact ⟨left, of_cons right neutral⟩

/-- The brackets around a group are of one kind. -/
theorem of_enclose (whole : Matched (opener :: inside ++ [closer]))
    (opening : opener.kind.isOpener = true) (nested : Nested inside) :
    opener.kind.closer? = some closer.kind ∧ Matched inside := by
  obtain ⟨next, awaits, later⟩ := awaited?_cons_eq_some.mp whole
  obtain ⟨own, own_⟩ := Option.ne_none_iff_exists'.mp fun none =>
    Bool.false_ne_true ((Kind.closer?_eq_none_iff.mp none).symm.trans opening)
  cases (await?_eq_some.mpr awaits).symm.trans (await?_eq_some.mpr (.opens own_))
  obtain ⟨mid, left, right⟩ := awaited?_append_eq_some.mp later
  obtain ⟨rfl, inner⟩ := matched_of_nested nested left
  obtain ⟨last, closes, done⟩ := awaited?_cons_eq_some.mp right
  cases done
  cases closes with
  | closes closing => exact ⟨own_, inner⟩

end Matched

section Divided

variable {kind : Kind} {ts before behind : List Token} {waiting : List Kind} {depth : Int}

theorem depthAfter_of_awaits {t : Token} {next : List Kind} (awaits : Awaits t waiting next) :
    depthAfter waiting.length t = next.length := by
  have one : awaited? waiting [t] = some next := awaited?_cons_eq_some.mpr ⟨next, awaits, rfl⟩
  exact depthAcross_of_awaited one

theorem split_cons (t : Token) : split kind depth (t :: ts) =
    if exposed depth t && t.kind == kind then
      ([], (split kind (depthAfter depth t) ts).1 :: (split kind (depthAfter depth t) ts).2)
    else (t :: (split kind (depthAfter depth t) ts).1, (split kind (depthAfter depth t) ts).2) := rfl

theorem segments_cons (t : Token) : segments depth (t :: ts) =
    if exposed depth t && t.kind == .question then
      ([], (segments (depthAfter depth t) ts).1 :: (segments (depthAfter depth t) ts).2)
    else if exposed depth t && t.kind == .exist then
      ([], [] :: (segments (depthAfter depth t) ts).1 :: (segments (depthAfter depth t) ts).2)
    else (t :: (segments (depthAfter depth t) ts).1, (segments (depthAfter depth t) ts).2) := rfl

theorem split_awaited (neutral : kind.isNeutral = true) (matching : awaited? waiting ts = some []) :
    awaited? waiting (split kind waiting.length ts).1 = some [] ∧
      ∀ p ∈ (split kind waiting.length ts).2, Matched p := by
  induction ts generalizing waiting with
  | nil => exact ⟨matching, nofun⟩
  | cons t ts ih =>
    obtain ⟨next, awaits, later⟩ := awaited?_cons_eq_some.mp matching
    obtain ⟨first, rest⟩ := ih later
    rw [split_cons, depthAfter_of_awaits awaits]
    split
    · rename_i here
      simp only [Bool.and_eq_true, beq_iff_eq] at here
      obtain ⟨shown, rfl⟩ := here
      cases waiting_eq_nil_of_exposed neutral shown
      cases (await?_eq_some.mpr awaits).symm.trans (await?_eq_some.mpr (.stays neutral))
      exact ⟨rfl, List.forall_mem_cons.mpr ⟨first, rest⟩⟩
    · exact ⟨awaited?_cons_eq_some.mpr ⟨next, awaits, first⟩, rest⟩

theorem segments_awaited (matching : awaited? waiting ts = some []) :
    awaited? waiting (segments waiting.length ts).1 = some [] ∧
      ∀ p ∈ (segments waiting.length ts).2, Matched p := by
  induction ts generalizing waiting with
  | nil => exact ⟨matching, nofun⟩
  | cons t ts ih =>
    obtain ⟨next, awaits, later⟩ := awaited?_cons_eq_some.mp matching
    obtain ⟨first, rest⟩ := ih later
    have here (kind : Kind) (neutral : kind.isNeutral = true)
        (both : (exposed waiting.length t && t.kind == kind) = true) : waiting = [] ∧ next = [] := by
      simp only [Bool.and_eq_true, beq_iff_eq] at both
      obtain ⟨shown, rfl⟩ := both
      cases waiting_eq_nil_of_exposed neutral shown
      cases (await?_eq_some.mpr awaits).symm.trans (await?_eq_some.mpr (.stays neutral))
      exact ⟨rfl, rfl⟩
    rw [segments_cons, depthAfter_of_awaits awaits]
    split
    · rename_i question
      obtain ⟨rfl, rfl⟩ := here .question rfl question
      exact ⟨rfl, List.forall_mem_cons.mpr ⟨first, rest⟩⟩
    · split
      · rename_i exist
        obtain ⟨rfl, rfl⟩ := here .exist rfl exist
        exact ⟨rfl, List.forall_mem_cons.mpr ⟨rfl, List.forall_mem_cons.mpr ⟨first, rest⟩⟩⟩
      · exact ⟨awaited?_cons_eq_some.mpr ⟨next, awaits, first⟩, rest⟩

theorem of_cut (found : cut kind depth ts = some (before, behind)) :
    ∃ t, ts = before ++ t :: behind ∧ t.kind = kind ∧ exposed (depthAcross depth before) t = true := by
  induction ts generalizing depth before with
  | nil => cases found
  | cons t ts ih =>
    rw [cut] at found
    split at found
    · rename_i here
      cases found
      simp only [Bool.and_eq_true, beq_iff_eq] at here
      exact ⟨t, rfl, here.2, here.1⟩
    · obtain ⟨⟨more, rest⟩, later, same⟩ := Option.map_eq_some_iff.mp found
      cases same
      obtain ⟨u, rfl, same, shown⟩ := ih later
      exact ⟨u, rfl, same, shown⟩

/-- The tokens of the last mark, the parenthesis behind it among them. -/
theorem of_lastThen (found : lastThen depth ts = some (before, behind)) :
    ∃ mark word paren, ts = before ++ mark :: word :: paren :: behind ∧ mark.kind = .question ∧
      word.kind = .word ∧ paren.kind = .leftParen ∧ exposed (depthAcross depth before) mark = true := by
  induction ts generalizing depth before with
  | nil => cases found
  | cons t ts ih =>
    rw [lastThen] at found
    split at found
    · rename_i later
      cases found
      obtain ⟨mark, word, paren, rfl, rest⟩ := ih later
      exact ⟨mark, word, paren, rfl, rest⟩
    · split at found
      · rename_i here
        cases found
        simp only [Bool.and_eq_true] at here
        obtain ⟨shown, marks⟩ := here
        unfold isThenMark at marks
        split at marks
        · rename_i mark word paren rest same
          cases same
          simp only [Bool.and_eq_true, beq_iff_eq] at marks
          exact ⟨_, word, paren, rfl, marks.1.1.1.1.1, marks.1.1.1.1.2, marks.1.2, shown⟩
        · cases marks
      · cases found

end Divided

end Walkthrough.Expression
