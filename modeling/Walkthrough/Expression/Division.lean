import Walkthrough.Expression.Token

/-! Division of token lists at operators that no bracket encloses. Brackets are counted, not
matched by kind, and closers without an opener count below zero: only tokens met at depth zero are
exposed, an opener before it is counted and a closer after. All parts of a division are shorter
than the whole, which is what keeps the parser going down. -/
namespace Walkthrough.Expression

def depthAfter (depth : Int) (t : Token) : Int :=
  if t.kind.isOpener then depth + 1 else if t.kind.isCloser then depth - 1 else depth

/-- The token stands at depth zero. -/
def exposed (depth : Int) (t : Token) : Bool :=
  if t.kind.isCloser then depth - 1 == 0 else depth == 0

/-- The parts between exposed tokens of one kind: the first, and those behind it. -/
def split (kind : Kind) (depth : Int) : List Token → List Token × List (List Token)
  | [] => ([], [])
  | t :: ts =>
    let (first, rest) := split kind (depthAfter depth t) ts
    if exposed depth t && t.kind == kind then ([], first :: rest) else (t :: first, rest)

/-- The parts of a chain: behind a question mark the next stage begins, a double one has an empty
stage before it. -/
def segments (depth : Int) : List Token → List Token × List (List Token)
  | [] => ([], [])
  | t :: ts =>
    let (first, rest) := segments (depthAfter depth t) ts
    if exposed depth t && t.kind == .question then ([], first :: rest)
    else if exposed depth t && t.kind == .exist then ([], [] :: first :: rest)
    else (t :: first, rest)

/-- What stands before and behind the first exposed token of a kind. -/
def cut (kind : Kind) (depth : Int) : List Token → Option (List Token × List Token)
  | [] => none
  | t :: ts =>
    if exposed depth t && t.kind == kind then some ([], ts)
    else (cut kind (depthAfter depth t) ts).map fun (before, behind) => (t :: before, behind)

/-- Splits the tokens behind an opener at its closer. -/
def enclosed (depth : Nat) : List Token → Option (List Token × List Token)
  | [] => none
  | t :: ts =>
    if t.kind.isCloser && depth == 0 then some ([], ts)
    else
      let inner := if t.kind.isOpener then depth + 1 else if t.kind.isCloser then depth - 1 else depth
      (enclosed inner ts).map fun (inside, behind) => (t :: inside, behind)

/-- The inside of a list that is one bracketed group. -/
def group? (opener : Kind → Bool) : List Token → Option (List Token)
  | [] => none
  | t :: ts =>
    if opener t.kind then
      match enclosed 0 ts with
      | some (inside, []) => some inside
      | _ => none
    else none

/-- A question mark, the word `then` and a parenthesis with nothing in between. -/
def isThenMark : List Token → Bool
  | mark :: word :: paren :: _ =>
    mark.kind == .question && word.kind == .word && word.lexeme == "then".toList &&
      word.gap.isEmpty && paren.kind == .leftParen && paren.gap.isEmpty
  | _ => false

/-- What stands before the last exposed `?then(`, and behind it. -/
def lastThen (depth : Int) : List Token → Option (List Token × List Token)
  | [] => none
  | t :: ts =>
    match lastThen (depthAfter depth t) ts with
    | some (before, behind) => some (t :: before, behind)
    | none => if exposed depth t && isThenMark (t :: ts) then some ([], ts.drop 2) else none

/-- Tokens fewer than a bound. -/
abbrev Shorter (n : Nat) := { ts : List Token // ts.length < n }

def Shorter.widen {m n : Nat} (h : m ≤ n) (p : Shorter m) : Shorter n :=
  ⟨p.val, Nat.lt_of_lt_of_le p.property h⟩

def addedUp (ns : List Nat) : Nat := ns.foldr (· + ·) 0

@[simp] theorem addedUp_nil : addedUp [] = 0 := rfl

@[simp] theorem addedUp_cons (n : Nat) (ns : List Nat) : addedUp (n :: ns) = n + addedUp ns := rfl

theorem le_addedUp_of_mem {n : Nat} {ns : List Nat} (h : n ∈ ns) : n ≤ addedUp ns := by
  induction ns with
  | nil => simp at h
  | cons m ms ih =>
    rw [addedUp_cons]
    rcases List.mem_cons.1 h with rfl | h
    · omega
    · have := ih h
      omega

theorem split_length (kind : Kind) (depth : Int) (ts : List Token) :
    (split kind depth ts).1.length + addedUp ((split kind depth ts).2.map (·.length + 1)) =
      ts.length := by
  induction ts generalizing depth with
  | nil => rfl
  | cons t ts ih =>
    have := ih (depthAfter depth t)
    simp only [split]
    split
    · simp only [List.length_nil, List.map_cons, addedUp_cons, List.length_cons]
      omega
    · simp only [List.length_cons]
      omega

theorem segments_length (depth : Int) (ts : List Token) :
    (segments depth ts).1.length + addedUp ((segments depth ts).2.map (·.length)) ≤ ts.length ∧
      ((segments depth ts).2 = [] ∨ (segments depth ts).1.length +
        addedUp ((segments depth ts).2.map (·.length)) < ts.length) := by
  induction ts generalizing depth with
  | nil => simp [segments]
  | cons t ts ih =>
    have := ih (depthAfter depth t)
    simp only [segments]
    split
    · simp only [List.length_nil, List.map_cons, addedUp_cons, List.length_cons]
      omega
    · split
      · simp only [List.length_nil, List.map_cons, addedUp_cons, List.length_cons]
        omega
      · simp only [List.length_cons]
        refine ⟨by omega, this.2.imp id fun _ => by omega⟩

theorem cut_length {kind : Kind} {depth : Int} {ts before behind : List Token}
    (h : cut kind depth ts = some (before, behind)) :
    before.length + behind.length + 1 = ts.length := by
  induction ts generalizing depth before with
  | nil => simp [cut] at h
  | cons t ts ih =>
    simp only [cut] at h
    split at h
    · cases h
      simp
    · obtain ⟨⟨b, r⟩, hr, he⟩ := Option.map_eq_some_iff.1 h
      simp only [Prod.mk.injEq] at he
      obtain ⟨rfl, rfl⟩ := he
      have := ih hr
      simp only [List.length_cons]
      omega

theorem enclosed_length {depth : Nat} {ts inside behind : List Token}
    (h : enclosed depth ts = some (inside, behind)) :
    inside.length + behind.length + 1 = ts.length := by
  induction ts generalizing depth inside with
  | nil => simp [enclosed] at h
  | cons t ts ih =>
    simp only [enclosed] at h
    split at h
    · cases h
      simp
    · obtain ⟨⟨i, r⟩, hr, he⟩ := Option.map_eq_some_iff.1 h
      simp only [Prod.mk.injEq] at he
      obtain ⟨rfl, rfl⟩ := he
      have := ih hr
      simp only [List.length_cons]
      omega

theorem group?_length {opener : Kind → Bool} {ts inside : List Token}
    (h : group? opener ts = some inside) : inside.length < ts.length := by
  cases ts with
  | nil => simp [group?] at h
  | cons t ts =>
    simp only [group?] at h
    split at h
    · split at h
      · next hi =>
        cases h
        have := enclosed_length hi
        simp only [List.length_nil, List.length_cons] at this ⊢
        omega
      · simp at h
    · simp at h

theorem lastThen_length {depth : Int} {ts before behind : List Token}
    (h : lastThen depth ts = some (before, behind)) :
    before.length < ts.length ∧ behind.length < ts.length := by
  induction ts generalizing depth before with
  | nil => simp [lastThen] at h
  | cons t ts ih =>
    simp only [lastThen] at h
    split at h
    · next hr =>
      cases h
      have := ih hr
      simp only [List.length_cons]
      omega
    · split at h
      · cases h
        simp only [List.length_nil, List.length_cons, List.length_drop]
        omega
      · simp at h

theorem length_lt_of_mem_split {kind : Kind} {ts p : List Token}
    (h : p ∈ (split kind 0 ts).1 :: (split kind 0 ts).2) (hr : (split kind 0 ts).2 ≠ []) :
    p.length < ts.length := by
  have total := split_length kind 0 ts
  cases hs : (split kind 0 ts).2 with
  | nil => exact absurd hs hr
  | cons q qs =>
    rw [hs] at h total
    simp only [List.map_cons, addedUp_cons] at total
    rcases List.mem_cons.1 h with rfl | h
    · omega
    · have : p.length + 1 ≤ addedUp ((q :: qs).map (·.length + 1)) :=
        le_addedUp_of_mem (List.mem_map_of_mem h)
      simp only [List.map_cons, addedUp_cons] at this
      omega

theorem length_le_of_mem_split {kind : Kind} {ts p : List Token}
    (h : p ∈ (split kind 0 ts).1 :: (split kind 0 ts).2) : p.length ≤ ts.length := by
  by_cases hr : (split kind 0 ts).2 = []
  · have total := split_length kind 0 ts
    rw [hr, List.mem_singleton] at h
    rw [hr] at total
    simp only [List.map_nil, addedUp_nil] at total
    rw [h]
    omega
  · exact Nat.le_of_lt (length_lt_of_mem_split h hr)

theorem length_lt_of_mem_segments {ts p : List Token}
    (h : p ∈ (segments 0 ts).1 :: (segments 0 ts).2) (hr : (segments 0 ts).2 ≠ []) :
    p.length < ts.length := by
  have total := (segments_length 0 ts).2.resolve_left hr
  rcases List.mem_cons.1 h with rfl | h
  · omega
  · have : p.length ≤ addedUp ((segments 0 ts).2.map (·.length)) :=
      le_addedUp_of_mem (List.mem_map_of_mem h)
    omega

/-- The parts of a division, if it has more than one. -/
def divide? (kind : Kind) (ts : List Token) :
    Option (Shorter ts.length × List (Shorter ts.length)) :=
  if hr : (split kind 0 ts).2 = [] then none
  else
    some (⟨(split kind 0 ts).1, length_lt_of_mem_split List.mem_cons_self hr⟩,
      (split kind 0 ts).2.attach.map fun p =>
        ⟨p.val, length_lt_of_mem_split (List.mem_cons_of_mem _ p.property) hr⟩)

/-- All parts of a division, at least one. -/
def parts (kind : Kind) (ts : List Token) : List (Shorter (ts.length + 1)) :=
  ((split kind 0 ts).1 :: (split kind 0 ts).2).attach.map fun p =>
    ⟨p.val, Nat.lt_succ_of_le (length_le_of_mem_split p.property)⟩

/-- Base and stages of a chain, if there are stages. -/
def stages? (ts : List Token) : Option (Shorter ts.length × List (Shorter ts.length)) :=
  if hr : (segments 0 ts).2 = [] then none
  else
    some (⟨(segments 0 ts).1, length_lt_of_mem_segments List.mem_cons_self hr⟩,
      (segments 0 ts).2.attach.map fun p =>
        ⟨p.val, length_lt_of_mem_segments (List.mem_cons_of_mem _ p.property) hr⟩)

def inside? (opener : Kind → Bool) (ts : List Token) : Option (Shorter ts.length) :=
  match h : group? opener ts with
  | some inside => some ⟨inside, group?_length h⟩
  | none => none

/-- Condition and branches of a list that ends in `?then(…, …)`. -/
def conditional? (ts : List Token) :
    Option (Shorter ts.length × Shorter ts.length × Shorter ts.length) :=
  match h : lastThen 0 ts with
  | none => none
  | some (before, behind) =>
    if before.isEmpty then none
    else
      match h' : enclosed 0 behind with
      | some (inside, []) =>
        match h'' : split .comma 0 inside with
        | (yes, [no]) =>
          have lengths : yes.length < ts.length ∧ no.length < ts.length := by
            have total := split_length .comma 0 inside
            rw [h''] at total
            simp only [List.map_cons, List.map_nil, addedUp_cons, addedUp_nil] at total
            have := enclosed_length h'
            have := lastThen_length h
            simp only [List.length_nil] at *
            omega
          some (⟨before, (lastThen_length h).1⟩, ⟨yes, lengths.1⟩, ⟨no, lengths.2⟩)
        | _ => none
      | _ => none

/-- What stands before and behind the first exposed token of a kind, within a bound. -/
def cut? (kind : Kind) (ts : List Token) : Option (List Token × Shorter ts.length) :=
  match h : cut kind 0 ts with
  | some (before, behind) => some (before, ⟨behind, by have := cut_length h; omega⟩)
  | none => none

end Walkthrough.Expression
