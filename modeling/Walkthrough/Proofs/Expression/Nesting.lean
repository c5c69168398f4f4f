import Walkthrough.Expression.Division

/-! Token lists with well nested brackets. Behind an opener all of such a list is hidden, so that
the divisions of the parser pass over it; in front of more tokens it leaves the depth as it was.
What a division can find at all is the surface of a list, the kinds of its exposed tokens. -/
namespace Walkthrough.Expression

/-- No prefix closes more than it opens, and as much is opened as is closed. -/
structure WellNested (opens closes : Kind → Bool) (ts : List Token) : Prop where
  prefixes : ∀ front, front <+: ts →
    front.countP (fun t => closes t.kind) ≤ front.countP (fun t => opens t.kind)
  totals : ts.countP (fun t => closes t.kind) = ts.countP (fun t => opens t.kind)

/-- How many brackets are open behind the tokens, from a number of open ones; none if more are
closed on the way. -/
def height? (opens closes : Kind → Bool) (n : Nat) : List Token → Option Nat
  | [] => some n
  | t :: ts =>
    if opens t.kind then height? opens closes (n + 1) ts
    else if closes t.kind then
      match n with
      | 0 => none
      | m + 1 => height? opens closes m ts
    else height? opens closes n ts

section Height

variable {opens closes : Kind → Bool} {m n : Nat} {ts us : List Token}

theorem height?_of_counts (apart : ∀ k, opens k = true → closes k = false)
    (prefixes : ∀ front, front <+: ts →
      front.countP (fun t => closes t.kind) ≤ n + front.countP (fun t => opens t.kind))
    (totals : m + ts.countP (fun t => closes t.kind) = n + ts.countP (fun t => opens t.kind)) :
    height? opens closes n ts = some m := by
  induction ts generalizing n with
  | nil =>
    simp only [List.countP_nil, Nat.add_zero] at totals
    rw [height?, totals]
  | cons t ts ih =>
    have later : ∀ front, front <+: ts → (t :: front).countP (fun t => closes t.kind) ≤
        n + (t :: front).countP (fun t => opens t.kind) :=
      fun front before => prefixes (t :: front) (List.cons_prefix_cons.mpr ⟨rfl, before⟩)
    simp only [List.countP_cons] at later totals
    simp only [height?]
    split
    · rename_i opening
      simp only [opening, apart _ opening, ↓reduceIte, Bool.false_eq_true] at later totals
      exact ih (fun front before => by have := later front before; omega) (by omega)
    · rename_i opening
      split
      · rename_i closing
        simp only [opening, closing, ↓reduceIte, Bool.false_eq_true] at later totals
        cases n with
        | zero =>
          have := later [] (List.nil_prefix)
          simp at this
        | succ n => exact ih (fun front before => by have := later front before; omega) (by omega)
      · rename_i closing
        simp only [opening, closing, ↓reduceIte, Bool.false_eq_true] at later totals
        exact ih (fun front before => by have := later front before; omega) (by omega)

theorem counts_of_height? (apart : ∀ k, opens k = true → closes k = false)
    (within : height? opens closes n ts = some m) :
    (∀ front, front <+: ts →
      front.countP (fun t => closes t.kind) ≤ n + front.countP (fun t => opens t.kind)) ∧
      m + ts.countP (fun t => closes t.kind) = n + ts.countP (fun t => opens t.kind) := by
  induction ts generalizing n with
  | nil =>
    cases within
    simp
  | cons t ts ih =>
    -- the first token moves the counts of all prefixes but the empty one by the same amount
    have lift {k : Nat} (later : height? opens closes k ts = some m)
        (moved : k + (if closes t.kind then 1 else 0) = n + (if opens t.kind then 1 else 0)) :
        (∀ front, front <+: t :: ts → front.countP (fun t => closes t.kind) ≤
          n + front.countP (fun t => opens t.kind)) ∧
          m + (t :: ts).countP (fun t => closes t.kind) =
            n + (t :: ts).countP (fun t => opens t.kind) := by
      obtain ⟨prefixes, totals⟩ := ih later
      simp only [List.countP_cons]
      refine ⟨fun front before => ?_, by omega⟩
      rcases List.prefix_cons_iff.mp before with rfl | ⟨rest, rfl, before⟩
      · simp
      · have := prefixes rest (List.cons_prefix_cons.mp before).2
        simp only [List.countP_cons]
        omega
    simp only [height?] at within
    split at within
    · rename_i opening
      exact lift within (by simp [opening, apart _ opening])
    · rename_i opening
      split at within
      · rename_i closing
        cases n with
        | zero => cases within
        | succ n => exact lift within (by simp [opening, closing])
      · rename_i closing
        exact lift within (by simp [opening, closing])

theorem wellNested_iff (apart : ∀ k, opens k = true → closes k = false) :
    WellNested opens closes ts ↔ height? opens closes 0 ts = some 0 := by
  constructor
  · rintro ⟨prefixes, totals⟩
    exact height?_of_counts apart (fun front before => by have := prefixes front before; omega)
      (by omega)
  · intro within
    obtain ⟨prefixes, totals⟩ := counts_of_height? apart within
    exact ⟨fun front before => by have := prefixes front before; omega, by omega⟩

theorem height?_append :
    height? opens closes n (ts ++ us) =
      (height? opens closes n ts).bind fun m => height? opens closes m us := by
  induction ts generalizing n with
  | nil => rfl
  | cons t ts ih =>
    simp only [List.cons_append, height?, ih]
    split
    · rfl
    · split
      · cases n <;> rfl
      · rfl

theorem height?_add (k : Nat) (within : height? opens closes n ts = some m) :
    height? opens closes (n + k) ts = some (m + k) := by
  induction ts generalizing n with
  | nil =>
    cases within
    rfl
  | cons t ts ih =>
    simp only [height?] at within ⊢
    split
    · rename_i opening
      rw [if_pos opening] at within
      have := ih within
      rwa [Nat.add_right_comm] at this
    · rename_i opening
      rw [if_neg opening] at within
      split
      · rename_i closing
        rw [if_pos closing] at within
        cases n with
        | zero => cases within
        | succ n =>
          rw [Nat.add_right_comm]
          exact ih within
      · rename_i closing
        rw [if_neg closing] at within
        exact ih within

end Height

/-- Every bracket is closed, whatever its kind, and none that was not opened. -/
def Nested (ts : List Token) : Prop := height? Kind.isOpener Kind.isCloser 0 ts = some 0

theorem Kind.isCloser_of_isOpener (k : Kind) (opening : k.isOpener = true) :
    k.isCloser = false := by
  cases k <;> first | rfl | cases opening

/-- Neither opens nor closes. -/
def Kind.isNeutral (k : Kind) : Bool := !k.isOpener && !k.isCloser

namespace Nested

variable {ts us : List Token} {t opener closer : Token}

theorem nil : Nested [] := rfl

theorem append (left : Nested ts) (right : Nested us) : Nested (ts ++ us) := by
  unfold Nested at *
  rw [height?_append, left]
  exact right

theorem cons (neutral : t.kind.isNeutral = true) (rest : Nested ts) : Nested (t :: ts) := by
  simp only [Kind.isNeutral, Bool.and_eq_true, Bool.not_eq_true'] at neutral
  unfold Nested at *
  simpa [height?, neutral] using rest

theorem enclose (opening : opener.kind.isOpener = true) (closing : closer.kind.isCloser = true)
    (inside : Nested ts) : Nested (opener :: ts ++ [closer]) := by
  have same : closer.kind.isOpener = false := by
    cases open_ : closer.kind.isOpener with
    | false => rfl
    | true => rw [Kind.isCloser_of_isOpener _ open_] at closing; cases closing
  unfold Nested at *
  have within := height?_add 1 inside
  rw [List.cons_append, height?, if_pos opening, height?_append, within]
  simp [height?, same, closing]

end Nested

/-- The depth behind the tokens. -/
def depthAcross (depth : Int) (ts : List Token) : Int := ts.foldl depthAfter depth

/-- The kinds of the exposed tokens. -/
def surface (depth : Int) : List Token → List Kind
  | [] => []
  | t :: ts =>
    if exposed depth t then t.kind :: surface (depthAfter depth t) ts
    else surface (depthAfter depth t) ts

theorem surface_append (depth : Int) (ts us : List Token) :
    surface depth (ts ++ us) = surface depth ts ++ surface (depthAcross depth ts) us := by
  induction ts generalizing depth with
  | nil => rfl
  | cons t ts ih =>
    simp only [List.cons_append, surface, ih]
    split <;> rfl

theorem depthAcross_of_height {m n : Nat} {ts : List Token}
    (within : height? Kind.isOpener Kind.isCloser n ts = some m) : depthAcross n ts = m := by
  induction ts generalizing n with
  | nil =>
    cases within
    rfl
  | cons t ts ih =>
    simp only [height?] at within
    simp only [depthAcross, List.foldl_cons, depthAfter]
    split
    · rename_i opening
      rw [if_pos opening] at within
      exact ih within
    · rename_i opening
      rw [if_neg opening] at within
      split
      · rename_i closing
        rw [if_pos closing] at within
        cases n with
        | zero => cases within
        | succ n =>
          have := ih within
          rwa [show ((n + 1 : Nat) : Int) - 1 = n by omega]
      · rename_i closing
        rw [if_neg closing] at within
        exact ih within

/-- Behind an opener nothing is exposed. -/
theorem surface_of_height {m n : Nat} {ts : List Token}
    (within : height? Kind.isOpener Kind.isCloser n ts = some m) :
    surface ((n + 1 : Nat) : Int) ts = [] := by
  induction ts generalizing n with
  | nil => rfl
  | cons t ts ih =>
    simp only [height?] at within
    simp only [surface, exposed, depthAfter]
    split at within
    · rename_i opening
      have closing := Kind.isCloser_of_isOpener _ opening
      simp only [opening, closing, Bool.false_eq_true, ↓reduceIte, beq_iff_eq]
      rw [if_neg (by omega)]
      exact ih within
    · rename_i opening
      split at within
      · rename_i closing
        cases n with
        | zero => cases within
        | succ n =>
          simp only [opening, closing, Bool.false_eq_true, ↓reduceIte, beq_iff_eq]
          rw [if_neg (by omega), show ((n + 1 + 1 : Nat) : Int) - 1 = ((n + 1 : Nat) : Int) by omega]
          exact ih within
      · rename_i closing
        simp only [opening, closing, Bool.false_eq_true, ↓reduceIte, beq_iff_eq]
        rw [if_neg (by omega)]
        exact ih within

namespace Nested

variable {ts us : List Token} {t opener closer : Token} {kind : Kind}

theorem depthAcross (nested : Nested ts) (n : Nat) : depthAcross n ts = n := by
  have within := height?_add n nested
  rw [Nat.zero_add] at within
  exact depthAcross_of_height within

theorem surface_append (nested : Nested ts) :
    surface 0 (ts ++ us) = surface 0 ts ++ surface 0 us := by
  rw [Expression.surface_append, show (0 : Int) = ((0 : Nat) : Int) from rfl, nested.depthAcross 0]

theorem surface_cons (neutral : t.kind.isNeutral = true) :
    surface 0 (t :: ts) = t.kind :: surface 0 ts := by
  simp only [Kind.isNeutral, Bool.and_eq_true, Bool.not_eq_true'] at neutral
  simp [surface, exposed, depthAfter, neutral]

theorem surface_enclose (opening : opener.kind.isOpener = true)
    (closing : closer.kind.isCloser = true) (inside : Nested ts) :
    surface 0 (opener :: ts ++ [closer]) = [opener.kind, closer.kind] := by
  have first := Kind.isCloser_of_isOpener _ opening
  have hidden : surface 1 ts = [] := surface_of_height inside
  have deep : Expression.depthAcross 1 ts = 1 := inside.depthAcross 1
  rw [List.cons_append]
  simp only [surface, exposed, depthAfter, opening, first, Bool.false_eq_true, ↓reduceIte,
    beq_self_eq_true, Int.zero_add]
  rw [Expression.surface_append, hidden, deep]
  simp [surface, exposed, closing]

end Nested

section Divisions

variable {depth : Int} {kind : Kind} {ts us : List Token}

/-- A division passes over tokens whose surface does not show its kind. -/
theorem split_append (hidden : kind ∉ surface depth ts) :
    split kind depth (ts ++ us) =
      (ts ++ (split kind (depthAcross depth ts) us).1,
        (split kind (depthAcross depth ts) us).2) := by
  induction ts generalizing depth with
  | nil => rfl
  | cons t ts ih =>
    simp only [surface] at hidden
    have inner := @ih (depthAfter depth t)
    rw [List.cons_append, split]
    split at hidden
    · rename_i shown
      simp only [List.mem_cons, not_or] at hidden
      have other : (t.kind == kind) = false := by simpa using Ne.symm hidden.1
      rw [inner hidden.2]
      simp [shown, other, depthAcross]
    · rename_i shown
      rw [inner hidden]
      simp [shown, depthAcross]

theorem segments_append (question : Kind.question ∉ surface depth ts)
    (exist : Kind.exist ∉ surface depth ts) :
    segments depth (ts ++ us) =
      (ts ++ (segments (depthAcross depth ts) us).1, (segments (depthAcross depth ts) us).2) := by
  induction ts generalizing depth with
  | nil => rfl
  | cons t ts ih =>
    simp only [surface] at question exist
    have inner := @ih (depthAfter depth t)
    rw [List.cons_append, segments]
    split at question
    · rename_i shown
      rw [if_pos shown] at exist
      simp only [List.mem_cons, not_or] at question exist
      have first : (t.kind == Kind.question) = false := by simpa using Ne.symm question.1
      have second : (t.kind == Kind.exist) = false := by simpa using Ne.symm exist.1
      rw [inner question.2 exist.2]
      simp [shown, first, second, depthAcross]
    · rename_i shown
      rw [if_neg shown] at exist
      rw [inner question exist]
      simp [shown, depthAcross]

theorem split_of_hidden (hidden : kind ∉ surface depth ts) : split kind depth ts = (ts, []) := by
  have whole := @split_append depth kind ts [] hidden
  simpa [split] using whole

theorem segments_of_hidden (question : Kind.question ∉ surface depth ts)
    (exist : Kind.exist ∉ surface depth ts) : segments depth ts = (ts, []) := by
  have whole := @segments_append depth ts [] question exist
  simpa [segments] using whole

theorem isThenMark_question (marks : isThenMark us = true) :
    ∃ t ts, us = t :: ts ∧ t.kind = .question := by
  unfold isThenMark at marks
  split at marks
  · rename_i mark word paren rest
    simp only [Bool.and_eq_true, beq_iff_eq] at marks
    exact ⟨mark, _, rfl, marks.1.1.1.1.1⟩
  · cases marks

theorem lastThen_of_hidden (hidden : Kind.question ∉ surface depth ts) :
    lastThen depth ts = none := by
  induction ts generalizing depth with
  | nil => rfl
  | cons t ts ih =>
    simp only [surface] at hidden
    rw [lastThen]
    split at hidden
    · rename_i shown
      simp only [List.mem_cons, not_or] at hidden
      rw [ih hidden.2]
      have unmarked : ¬ isThenMark (t :: ts) = true := by
        intro marks
        obtain ⟨u, us, same, question⟩ := isThenMark_question marks
        cases same
        exact hidden.1 question.symm
      simp only [shown, Bool.true_and, if_neg unmarked]
    · rename_i shown
      rw [ih hidden]
      simp only [shown, Bool.false_and, Bool.false_eq_true, ↓reduceIte]

/-- The last mark of a list is the last of its end, if there is one. -/
theorem lastThen_append {before behind : List Token}
    (later : lastThen (depthAcross depth ts) us = some (before, behind)) :
    lastThen depth (ts ++ us) = some (ts ++ before, behind) := by
  induction ts generalizing depth with
  | nil => exact later
  | cons t ts ih =>
    rw [List.cons_append, lastThen, ih later]
    rfl

theorem isThenMark_word {t u : Token} (marks : isThenMark (t :: u :: us) = true) :
    u.kind = .word := by
  cases us with
  | nil => cases marks
  | cons v us =>
    simp only [isThenMark, Bool.and_eq_true, beq_iff_eq] at marks
    exact marks.1.1.1.1.2

theorem isThenMark_paren {t u v : Token} (marks : isThenMark (t :: u :: v :: us) = true) :
    v.kind = .leftParen := by
  simp only [isThenMark, Bool.and_eq_true, beq_iff_eq] at marks
  exact marks.1.2

theorem isThenMark_of_append {t : Token} (apart : ∀ u ∈ us.head?, u.kind ≠ .word ∧ u.kind ≠ .leftParen)
    (marks : isThenMark (t :: (ts ++ us)) = true) : isThenMark (t :: ts) = true := by
  cases us with
  | nil => rwa [List.append_nil] at marks
  | cons u us =>
    have other := apart u rfl
    cases ts with
    | nil => exact absurd (isThenMark_word marks) other.1
    | cons w ts =>
      cases ts with
      | nil => exact absurd (isThenMark_paren marks) other.2
      | cons p ts => exact marks

/-- No mark is made where a list meets tokens that begin with neither a word nor a parenthesis. -/
theorem lastThen_append_eq_none (left : lastThen depth ts = none)
    (right : lastThen (depthAcross depth ts) us = none)
    (apart : ∀ u ∈ us.head?, u.kind ≠ .word ∧ u.kind ≠ .leftParen) :
    lastThen depth (ts ++ us) = none := by
  induction ts generalizing depth with
  | nil => exact right
  | cons t ts ih =>
    rw [lastThen] at left
    split at left
    · cases left
    · rename_i later
      rw [List.cons_append, lastThen, ih later right]
      split at left
      · cases left
      · rename_i plain
        simp only [Bool.and_eq_true, not_and] at plain
        simp only [Bool.and_eq_true]
        rw [if_neg fun both => plain both.1 (isThenMark_of_append apart both.2)]

end Divisions

section Enclosure

variable {ts inside behind : List Token} {closer : Token} {n : Nat}

theorem enclosed_append (within : height? Kind.isOpener Kind.isCloser n inside = some 0)
    (closing : closer.kind.isCloser = true) :
    enclosed n (inside ++ closer :: behind) = some (inside, behind) := by
  induction inside generalizing n with
  | nil =>
    cases within
    simp [enclosed, closing]
  | cons t inside ih =>
    simp only [height?] at within
    simp only [List.cons_append, enclosed]
    split at within
    · rename_i opening
      simp [Kind.isCloser_of_isOpener _ opening, opening, ih within]
    · rename_i opening
      split at within
      · rename_i closes
        cases n with
        | zero => cases within
        | succ n => simp [closes, opening, ih within]
      · rename_i closes
        simp [closes, opening, ih within]

theorem of_enclosed (found : enclosed n ts = some (inside, behind)) :
    ∃ closer, ts = inside ++ closer :: behind ∧ closer.kind.isCloser = true ∧
      height? Kind.isOpener Kind.isCloser n inside = some 0 := by
  induction ts generalizing n inside with
  | nil => cases found
  | cons t ts ih =>
    simp only [enclosed] at found
    split at found
    · rename_i here
      cases found
      simp only [Bool.and_eq_true, beq_iff_eq] at here
      exact ⟨t, rfl, here.1, congrArg some here.2⟩
    · rename_i goesOn
      simp only [Bool.and_eq_true, beq_iff_eq, not_and] at goesOn
      obtain ⟨⟨more, rest⟩, later, same⟩ := Option.map_eq_some_iff.mp found
      cases same
      obtain ⟨closer, rfl, closing, within⟩ := ih later
      refine ⟨closer, rfl, closing, ?_⟩
      simp only [height?]
      split
      · rename_i opening
        simpa [opening] using within
      · rename_i opening
        split
        · rename_i closes
          cases n with
          | zero => exact absurd rfl (goesOn closes)
          | succ n => simpa [opening, closes] using within
        · rename_i closes
          simpa [opening, closes] using within

variable {p : Kind → Bool} {opener : Token}

theorem group?_enclose (opening : p opener.kind = true) (closing : closer.kind.isCloser = true)
    (nested : Nested inside) : group? p (opener :: inside ++ [closer]) = some inside := by
  simp [group?, opening, enclosed_append nested closing]

theorem of_group? (found : group? p ts = some inside) :
    ∃ opener closer, ts = opener :: inside ++ [closer] ∧ p opener.kind = true ∧
      closer.kind.isCloser = true ∧ Nested inside := by
  cases ts with
  | nil => cases found
  | cons t ts =>
    simp only [group?] at found
    split at found
    · rename_i opening
      split at found
      · rename_i more closed
        cases found
        obtain ⟨closer, rfl, closing, within⟩ := of_enclosed closed
        exact ⟨t, closer, rfl, opening, closing, within⟩
      · cases found
    · cases found

end Enclosure

end Walkthrough.Expression
