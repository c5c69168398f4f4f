import Walkthrough.Proofs.Service.Store

/-! A store keeps what was used most recently. No time is noted anywhere, but sessions stand in the
order of their last use whatever is stored, found, missed or removed, so the first one is always the
one to give up. -/
namespace Walkthrough

namespace Store

inductive Operation (α : Type) where
  | create (session : α)
  | get (name : String)
  | count
  | remove (name : String)
  | clear

/-- An operation that removes nothing. -/
def Operation.Lasting {α : Type} : Operation α → Prop
  | create _ | get _ | count => True
  | remove _ | clear => False

/-- A store, with a record of how it came about. -/
structure Record (α : Type) where
  store : Store α
  /-- Under which names sessions were stored or found, the latest first. -/
  uses : List String
  /-- The sessions that were stored, each under its name. -/
  born : List (String × α)

namespace Record

variable {α : Type} {r : Record α} {naming : Nat → String} {capacity : Nat} {name : String}
  {session : α} {kept : List (String × α)}

def new (naming : Nat → String) (capacity : Nat) : Record α :=
  ⟨.emptyWith naming (some capacity), [], []⟩

def after (r : Record α) : Operation α → Record α
  | .create session =>
    match r.store.create session with
    | some (name, store) => ⟨store, name :: r.uses, (name, session) :: r.born⟩
    | none => r
  | .get name =>
    match r.store.get name with
    | some (_, store) => { r with store := store, uses := name :: r.uses }
    | none => r
  | .count => r
  | .remove name =>
    match r.store.remove name with
    | some (_, store) => { r with store := store }
    | none => r
  | .clear => { r with store := r.store.clear }

def run (r : Record α) (operations : List (Operation α)) : Record α := operations.foldl after r

/-- How many uses the last use of a name lies back. -/
def age (r : Record α) (name : String) : Nat := r.uses.idxOf name

/-- The last use of a stored session lies further back than that of any other. -/
def Oldest (r : Record α) (name : String) : Prop :=
  name ∈ r.store.names ∧ ∀ other ∈ r.store.names, other ≠ name → r.age other < r.age name

/-- What a store of a given capacity does next. -/
structure Exact (r : Record α) (capacity : Nat) : Prop where
  distinct : r.store.names.Nodup
  bounded : r.store.count ≤ capacity
  /-- A new session costs another one its place only if there is no other place. -/
  creates : ∀ session, ∃ name store, r.store.create session = some (name, store) ∧
    name ∉ r.store.names ∧ store.find? name = some session ∧
    (r.store.count < capacity → ∀ other, other ≠ name →
      store.find? other = r.store.find? other) ∧
    (r.store.count = capacity → ∃ oldest, r.Oldest oldest ∧ store.find? oldest = none ∧
      ∀ other, other ≠ name → other ≠ oldest → store.find? other = r.store.find? other)
  /-- Looking a session up changes nothing that is stored. -/
  gets : ∀ name other, (r.after (.get name)).store.find? other = r.store.find? other
  /-- A name that is stored means the session that it was given to. -/
  faithful : ∀ name session, (name, session) ∈ r.born → name ∈ r.store.names →
    r.store.find? name = some session

/-- The sessions of a store are those that were used most recently, as many as it can hold. -/
structure MostRecent (r : Record α) (capacity : Nat) : Prop where
  count : r.store.count = min capacity r.born.length
  born : ∀ name ∈ r.store.names, name ∈ r.born.map Prod.fst
  recent : ∀ name ∈ r.store.names, ∀ other ∈ r.born.map Prod.fst, other ∉ r.store.names →
    r.age name < r.age other

/-- The record and the store agree. -/
structure Sound (r : Record α) (capacity : Nat) : Prop where
  store : r.store.Sound
  capacity : r.store.capacity = some (capacity : Int)
  ordered : r.store.sessions.Pairwise fun a b => r.age b.1 < r.age a.1
  born : ∀ entry ∈ r.store.sessions, entry ∈ r.born
  given : ∀ name ∈ r.born.map Prod.fst, r.store.Given name
  distinct : (r.born.map Prod.fst).Nodup

theorem age_cons (store : Store α) (uses : List String) (born : List (String × α))
    (name other : String) : (Record.mk store (name :: uses) born).age other =
      if other = name then 0 else uses.idxOf other + 1 := by
  by_cases same : other = name
  · rw [if_pos same, age, same, List.idxOf_cons_self]
  · rw [if_neg same, age, List.idxOf_cons_ne _ (Ne.symm same)]

/-- The session that is used goes behind all others. -/
theorem ordered_append (ordered : kept.Pairwise fun a b => r.age b.1 < r.age a.1)
    (others : ∀ entry ∈ kept, entry.1 ≠ name) (session : α) (store : Store α)
    (born : List (String × α)) :
    (kept ++ [(name, session)]).Pairwise fun a b =>
      (Record.mk store (name :: r.uses) born).age b.1 <
        (Record.mk store (name :: r.uses) born).age a.1 := by
  rw [List.pairwise_append]
  refine ⟨ordered.imp_of_mem fun {a b} first second less => ?_, List.pairwise_singleton _ _, ?_⟩
  · rw [age_cons, age_cons, if_neg (others a first), if_neg (others b second)]
    exact Nat.succ_lt_succ less
  · intro entry inside last here
    rw [List.mem_singleton.mp here, age_cons, age_cons, if_pos rfl, if_neg (others entry inside)]
    exact Nat.succ_pos _

theorem Sound.isFull_iff (sound : r.Sound capacity) :
    r.store.isFull = true ↔ capacity ≤ r.store.count := by
  simp [Store.isFull_iff, sound.capacity]

theorem Sound.count_le (sound : r.Sound capacity) : r.store.count ≤ capacity := by
  rcases sound.store.bounded _ sound.capacity with nothing | few
  · simp [count, nothing]
  · exact Int.ofNat_le.mp few

theorem Sound.faithful (sound : r.Sound capacity) (first : (name, session) ∈ r.born)
    (inside : name ∈ r.store.names) : r.store.find? name = some session := by
  obtain ⟨other, found⟩ := Option.isSome_iff_exists.mp (mem_names_iff.mp inside)
  have second : (name, other) ∈ r.born := sound.born _ (mem_of_find? found)
  have same : (name, session) = (name, other) :=
    List.inj_on_of_nodup_map sound.distinct first second rfl
  cases same
  exact found

theorem Sound.oldest {first : String × α} (sound : r.Sound capacity)
    (split : r.store.sessions = first :: kept) : r.Oldest first.1 := by
  have ordered := sound.ordered
  rw [split, List.pairwise_cons] at ordered
  refine ⟨?_, fun other inside apart => ?_⟩
  · rw [names, split]
    exact List.mem_cons_self ..
  · rw [names, split, List.map_cons] at inside
    rcases List.mem_cons.mp inside with same | later
    · exact absurd same apart
    · obtain ⟨entry, there, rfl⟩ := List.mem_map.mp later
      exact ordered.1 entry there

/-! ## Single operations -/

theorem sound_new (apart : Function.Injective naming) (capacity : Nat) :
    (new naming capacity : Record α).Sound capacity :=
  ⟨sound_emptyWith apart _, rfl, List.Pairwise.nil, nofun, nofun, List.nodup_nil⟩

theorem Sound.create {store : Store α} (sound : r.Sound capacity)
    (created : r.store.create session = some (name, store)) :
    (Record.mk store (name :: r.uses) ((name, session) :: r.born)).Sound capacity := by
  have next := sound.store.create created
  obtain ⟨rfl, kept, keeps, rfl⟩ := create_eq_some.mp created
  have old := keeps.sublist
  have others (entry : String × α) (inside : entry ∈ kept) :
      entry.1 ≠ r.store.naming (r.store.made + 1) := by
    rintro same
    exact sound.store.unused (same ▸ mem_names_of_mem (old.subset inside))
  have later (other : String) (given : r.store.Given other) :
      ∃ n, 0 < n ∧ n ≤ r.store.made + 1 ∧ r.store.naming n = other := by
    obtain ⟨n, first, le, same⟩ := given
    exact ⟨n, first, Nat.le_succ_of_le le, same⟩
  refine ⟨next, sound.capacity, ordered_append (sound.ordered.sublist old) others _ _ _, ?_, ?_, ?_⟩
  · intro entry inside
    rcases List.mem_append.mp inside with there | new
    · exact List.mem_cons_of_mem _ (sound.born entry (old.subset there))
    · rw [List.mem_singleton.mp new]
      exact List.mem_cons_self ..
  · intro other inside
    rcases List.mem_cons.mp inside with rfl | there
    · exact ⟨r.store.made + 1, Nat.succ_pos _, Nat.le_refl _, rfl⟩
    · exact later other (sound.given other there)
  · exact List.nodup_cons.mpr ⟨fun inside => sound.store.fresh (sound.given _ inside),
      sound.distinct⟩

theorem Sound.get {store : Store α} (sound : r.Sound capacity)
    (used : r.store.get name = some (session, store)) :
    (Record.mk store (name :: r.uses) r.born).Sound capacity := by
  have next := sound.store.get used
  obtain ⟨found, rfl⟩ := get_eq_some.mp used
  refine ⟨next, sound.capacity, ordered_append (sound.ordered.sublist List.filter_sublist) ?_ _ _ _,
    ?_, sound.given, sound.distinct⟩
  · intro entry inside
    exact (mem_without.mp inside).2
  · intro entry inside
    rcases List.mem_append.mp inside with there | new
    · exact sound.born entry (mem_without.mp there).1
    · rw [List.mem_singleton.mp new]
      exact sound.born _ (mem_of_find? found)

theorem Sound.after (sound : r.Sound capacity) (o : Operation α) : (r.after o).Sound capacity := by
  cases o with
  | create session =>
    simp only [Record.after]
    split
    · rename_i name store created
      exact sound.create created
    · exact sound
  | get name =>
    simp only [Record.after]
    split
    · rename_i session store used
      exact sound.get used
    · exact sound
  | count => exact sound
  | remove name =>
    simp only [Record.after]
    split
    · rename_i session store removed
      have next := sound.store.remove removed
      obtain ⟨-, rfl⟩ := remove_eq_some.mp removed
      exact ⟨next, sound.capacity, sound.ordered.sublist List.filter_sublist,
        fun entry inside => sound.born entry (mem_without.mp inside).1, sound.given, sound.distinct⟩
    · exact sound
  | clear => exact ⟨sound.store.clear, sound.capacity, List.Pairwise.nil, nofun, sound.given,
      sound.distinct⟩

theorem Sound.run (sound : r.Sound capacity) (operations : List (Operation α)) :
    (r.run operations).Sound capacity := by
  induction operations generalizing r with
  | nil => exact sound
  | cons o operations ih => exact ih (sound.after o)

theorem find?_after_get (r : Record α) (name other : String) :
    (r.after (.get name)).store.find? other = r.store.find? other := by
  simp only [Record.after]
  split
  · rename_i session store used
    exact find?_get used other
  · rfl

theorem Sound.exact (sound : r.Sound capacity) (roomy : 1 ≤ capacity) : r.Exact capacity := by
  refine ⟨sound.store.distinct, sound.count_le, fun session => ?_, find?_after_get r,
    fun _ _ => sound.faithful⟩
  have room : r.store.isFull = true → r.store.sessions ≠ [] := by
    intro full nothing
    have many := sound.isFull_iff.mp full
    simp only [count, nothing, List.length_nil] at many
    omega
  obtain ⟨name, store, created⟩ := exists_create session room
  obtain ⟨rfl, kept, keeps, rfl⟩ := create_eq_some.mp created
  have found := find?_create sound.store keeps session (r.store.made + 1)
  have itself := (found (r.store.naming (r.store.made + 1))).trans (if_pos rfl)
  refine ⟨_, _, created, sound.store.unused, itself, ?_, ?_⟩
  · intro less other apart
    rw [found other, if_neg apart]
    cases keeps with
    | all _ => rfl
    | rest full _ => exact absurd (sound.isFull_iff.mp full) (Nat.not_le_of_lt less)
  · intro full
    cases keeps with
    | all room => cases room.symm.trans (sound.isFull_iff.mpr (Nat.le_of_eq full.symm))
    | @rest first kept _ split =>
      have oldest := sound.oldest split
      have left := sound.store.find?_rest split
      refine ⟨first.1, oldest, ?_, fun other apart others => ?_⟩
      · have old : first.1 ≠ r.store.naming (r.store.made + 1) := by
          intro same
          exact sound.store.unused (same ▸ oldest.1)
        rw [found, if_neg old, left, if_pos rfl]
      · rw [found, if_neg apart, left, if_neg others]

/-! ## Runs in which nothing is removed -/

theorem mostRecent_new (naming : Nat → String) (capacity : Nat) :
    (new naming capacity : Record α).MostRecent capacity :=
  ⟨(Nat.min_zero capacity).symm, nofun, nofun⟩

theorem MostRecent.create {store : Store α} (recent : r.MostRecent capacity)
    (sound : r.Sound capacity) (created : r.store.create session = some (name, store)) :
    (Record.mk store (name :: r.uses) ((name, session) :: r.born)).MostRecent capacity := by
  obtain ⟨rfl, kept, keeps, rfl⟩ := create_eq_some.mp created
  have old (other : String) (inside : other ∈ kept.map Prod.fst) : other ∈ r.store.names :=
    (keeps.sublist.map _).subset inside
  have fresh (other : String) (given : r.store.Given other) :
      other ≠ r.store.naming (r.store.made + 1) := by
    rintro rfl
    exact sound.store.fresh given
  have stored (other : String) (inside : other ∈ kept.map Prod.fst) :=
    fresh other (sound.store.given other (old other inside))
  refine ⟨?_, ?_, ?_⟩
  · have size := recent.count
    have few := sound.count_le
    cases keeps with
    | all room =>
      have less := mt sound.isFull_iff.mpr (Bool.eq_false_iff.mp room)
      simp only [Store.count, List.length_append, List.length_cons, List.length_nil]
        at size few less ⊢
      omega
    | rest full split =>
      have many := sound.isFull_iff.mp full
      simp only [Store.count, split, List.length_append, List.length_cons, List.length_nil]
        at size few many ⊢
      omega
  · intro other inside
    rw [names, List.map_append] at inside
    rcases List.mem_append.mp inside with there | new
    · exact List.mem_cons_of_mem _ (recent.born other (old other there))
    · rw [List.mem_singleton.mp new]
      exact List.mem_cons_self ..
  · intro other inside lost born gone
    rw [names, List.map_append, List.mem_append, List.map_singleton, List.mem_singleton]
      at inside gone
    obtain ⟨unkept, apart⟩ := not_or.mp gone
    have before : lost ∈ r.born.map Prod.fst := by
      rcases List.mem_cons.mp born with same | before
      · exact absurd same apart
      · exact before
    rw [age_cons, age_cons, if_neg apart]
    rcases inside with there | new
    · rw [if_neg (stored other there)]
      refine Nat.succ_lt_succ ?_
      by_cases here : lost ∈ r.store.names
      · -- it has just been given up, so it was the first
        cases keeps with
        | all _ => exact absurd here unkept
        | rest _ split =>
          have oldest := sound.oldest split
          rw [names, split, List.map_cons, List.mem_cons, or_iff_left unkept] at here
          subst here
          exact oldest.2 other (old other there) (fun same => unkept (same ▸ there))
      · exact recent.recent other (old other there) lost before here
    · rw [if_pos new]
      exact Nat.succ_pos _

theorem MostRecent.get {store : Store α} (recent : r.MostRecent capacity)
    (sound : r.Sound capacity) (used : r.store.get name = some (session, store)) :
    (Record.mk store (name :: r.uses) r.born).MostRecent capacity := by
  have same := sound.store.names_get used
  have here : name ∈ r.store.names :=
    mem_names_of_mem (mem_of_find? (get_eq_some.mp used).1)
  refine ⟨?_, ?_, ?_⟩
  · have size := same.length_eq
    simp only [names, List.length_map] at size
    exact size.trans recent.count
  · intro other inside
    exact recent.born other (same.mem_iff.mp inside)
  · intro other inside lost born gone
    have unstored := mt same.mem_iff.mpr gone
    have apart : lost ≠ name := fun other => unstored (other ▸ here)
    rw [age_cons, age_cons, if_neg apart]
    by_cases itself : other = name
    · rw [if_pos itself]
      exact Nat.succ_pos _
    · rw [if_neg itself]
      exact Nat.succ_lt_succ (recent.recent other (same.mem_iff.mp inside) lost born unstored)

theorem MostRecent.after {o : Operation α} (recent : r.MostRecent capacity)
    (sound : r.Sound capacity) (lasting : o.Lasting) : (r.after o).MostRecent capacity := by
  cases o with
  | create session =>
    simp only [Record.after]
    split
    · rename_i name store created
      exact recent.create sound created
    · exact recent
  | get name =>
    simp only [Record.after]
    split
    · rename_i session store used
      exact recent.get sound used
    · exact recent
  | count => exact recent
  | remove name | clear => exact absurd lasting not_false

theorem MostRecent.run {operations : List (Operation α)} (recent : r.MostRecent capacity)
    (sound : r.Sound capacity) (lasting : ∀ o ∈ operations, o.Lasting) :
    (r.run operations).MostRecent capacity := by
  induction operations generalizing r with
  | nil => exact recent
  | cons o operations ih =>
    exact ih (recent.after sound (lasting o (List.mem_cons_self ..))) (sound.after o)
      fun later inside => lasting later (List.mem_cons_of_mem _ inside)

/-- A store gives up the session whose last use lies furthest back, and only to make room. Unless
something is removed it therefore holds the sessions used most recently. -/
theorem keeps_most_recent (roomy : 1 ≤ capacity) (apart : Function.Injective naming)
    (operations : List (Operation α)) :
    ((new naming capacity).run operations).Exact capacity ∧
      ((∀ o ∈ operations, o.Lasting) →
        ((new naming capacity).run operations).MostRecent capacity) := by
  have sound := sound_new (α := α) apart capacity
  exact ⟨(sound.run operations).exact roomy,
    fun lasting => (mostRecent_new naming capacity).run sound lasting⟩

/-- A session that is looked up outlives one that was stored after it. -/
theorem keeps_most_recent_eviction :
    let operations := [.create 10, .create 20, .get "S1", .get "S7", .count, .create 30]
    ((new sessionName 2).run operations).Exact 2 ∧
      ((new sessionName 2).run operations).MostRecent 2 ∧
      ((new sessionName 2).run operations).store.sessions = [("S1", 10), ("S3", 30)] := by
  have both := keeps_most_recent (show 1 ≤ 2 by decide) sessionName_injective
    [.create 10, .create 20, .get "S1", .get "S7", .count, .create 30]
  exact ⟨both.1, both.2 (by simp [Operation.Lasting]), by decide⟩

end Record

end Store

end Walkthrough
