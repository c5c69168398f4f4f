import Mathlib.Data.List.Nodup
import Mathlib.Data.List.Perm.Subperm
import Mathlib.Logic.Function.Basic
import Walkthrough.Proofs.Number.Decimal
import Walkthrough.Service.Store

/-! What the operations on a store leave under each name. Looking a session up changes what is found
under no name, and replacing or removing one changes it under that name alone. Only a new session
may cost another one its place, and then it is the first. -/
namespace Walkthrough

namespace Store

variable {α : Type} {s t : Store α} {name other : String} {session : α}
  {kept : List (String × α)}

def names (s : Store α) : List String := s.sessions.map Prod.fst

/-- A name that some session has had. -/
def Given (s : Store α) (name : String) : Prop := ∃ n, 0 < n ∧ n ≤ s.made ∧ s.naming n = name

/-- A store in which a name means one session. -/
structure Sound (s : Store α) : Prop where
  apart : Function.Injective s.naming
  distinct : s.names.Nodup
  given : ∀ name ∈ s.names, s.Given name
  bounded : ∀ most, s.capacity = some most → s.sessions = [] ∨ (s.count : Int) ≤ most

theorem sessionName_injective : Function.Injective sessionName := by
  intro m n same
  have texts : m.repr.toList = n.repr.toList := by
    simpa [sessionName, ToString.toString] using congrArg String.toList same
  rw [Nat.toList_repr, Nat.toList_repr] at texts
  exact Numeral.toDigits_injective texts

theorem isFull_iff : s.isFull = true ↔ ∃ most, s.capacity = some most ∧ most ≤ (s.count : Int) := by
  simp [isFull, Option.any_eq_true]

theorem sound_emptyWith {naming : Nat → String} (apart : Function.Injective naming)
    (capacity : Option Int) : (emptyWith naming capacity : Store α).Sound :=
  ⟨apart, List.nodup_nil, nofun, fun _ _ => .inl rfl⟩

theorem Sound.fresh (sound : s.Sound) : ¬s.Given (s.naming (s.made + 1)) := by
  rintro ⟨n, -, le, same⟩
  have last := sound.apart same
  omega

theorem Sound.unused (sound : s.Sound) : s.naming (s.made + 1) ∉ s.names :=
  fun inside => sound.fresh (sound.given _ inside)

/-! ## What is found -/

theorem find?_eq_none_iff : s.find? name = none ↔ name ∉ s.names := by
  simp only [find?, names, Option.map_eq_none_iff, List.find?_eq_none, List.mem_map, beq_iff_eq]
  constructor
  · rintro absent ⟨entry, inside, same⟩
    exact absent entry inside same
  · intro absent entry inside same
    exact absent ⟨entry, inside, same⟩

theorem mem_names_iff : name ∈ s.names ↔ (s.find? name).isSome = true := by
  rw [Option.isSome_iff_ne_none, ne_eq, find?_eq_none_iff, not_not]

theorem mem_of_find? (found : s.find? name = some session) : (name, session) ∈ s.sessions := by
  obtain ⟨⟨n, x⟩, first, rfl⟩ := Option.map_eq_some_iff.mp found
  have same : n = name := by simpa using List.find?_some first
  exact same ▸ List.mem_of_find?_eq_some first

theorem mem_names_of_mem (inside : (name, session) ∈ s.sessions) : name ∈ s.names :=
  List.mem_map.mpr ⟨_, inside, rfl⟩

theorem mem_without {entry : String × α} :
    entry ∈ s.without name ↔ entry ∈ s.sessions ∧ entry.1 ≠ name := by
  simp [without]

/-! ## Looking up, replacing and removing -/

theorem get_eq_some : s.get name = some (session, t) ↔ s.find? name = some session ∧
    t = { s with sessions := s.without name ++ [(name, session)] } := by
  simp only [get, Option.map_eq_some_iff, Prod.mk.injEq]
  constructor
  · rintro ⟨_, found, rfl, rfl⟩
    exact ⟨found, rfl⟩
  · rintro ⟨found, rfl⟩
    exact ⟨_, found, rfl, rfl⟩

theorem get_eq_none : s.get name = none ↔ s.find? name = none := by
  simp [get]

theorem find?_without (s : Store α) (name other : String) :
    ({ s with sessions := s.without name } : Store α).find? other =
      if other = name then none else s.find? other := by
  by_cases same : other = name
  · rw [if_pos same, find?_eq_none_iff]
    intro inside
    obtain ⟨entry, left, rfl⟩ := List.mem_map.mp inside
    exact (mem_without.mp left).2 same
  · have agree : (fun entry : String × α => decide ((entry.1 != name) = true ∧
        (entry.1 == other) = true)) = fun entry => entry.1 == other := by
      funext entry
      by_cases here : entry.1 = other <;> simp [here, same]
    rw [if_neg same, find?, find?, without, List.find?_filter, agree]

/-- Being used does not change what is found under any name. -/
theorem find?_get (used : s.get name = some (session, t)) (other : String) :
    t.find? other = s.find? other := by
  obtain ⟨found, rfl⟩ := get_eq_some.mp used
  have kept := find?_without s name other
  simp only [find?] at kept found ⊢
  rw [List.find?_append, Option.map_or, kept]
  by_cases same : other = name
  · simp [same, found]
  · simp [same, Ne.symm same]

theorem find?_put (s : Store α) (name : String) (session : α) (other : String) :
    (s.put name session).find? other =
      if other = name then (s.find? name).map fun _ => session else s.find? other := by
  have keys : ((fun entry : String × α => entry.1 == other) ∘ fun entry =>
      if entry.1 == name then (name, session) else entry) = fun entry => entry.1 == other := by
    funext entry
    by_cases here : entry.1 = name <;> simp [here]
  rw [find?, put, List.find?_map, keys, find?, find?, Option.map_map]
  by_cases same : other = name
  · rw [if_pos same, same, Option.map_map]
    refine Option.map_congr fun entry first => ?_
    have here : entry.1 = name := by simpa using List.find?_some first
    simp [here]
  · rw [if_neg same]
    refine Option.map_congr fun entry first => ?_
    have here : entry.1 = other := by simpa using List.find?_some first
    simp [here, same]

theorem names_put (s : Store α) (name : String) (session : α) :
    (s.put name session).names = s.names := by
  rw [names, put, names, List.map_map]
  refine List.map_congr_left fun entry _ => ?_
  by_cases here : entry.1 = name <;> simp [here]

theorem remove_eq_some : s.remove name = some (session, t) ↔ s.find? name = some session ∧
    t = { s with sessions := s.without name } := by
  simp only [remove, Option.map_eq_some_iff, Prod.mk.injEq]
  constructor
  · rintro ⟨_, found, rfl, rfl⟩
    exact ⟨found, rfl⟩
  · rintro ⟨found, rfl⟩
    exact ⟨_, found, rfl, rfl⟩

/-! ## New sessions -/

/-- What a store keeps for a new session: everything, or if it is full all but the first. -/
inductive Keeps (s : Store α) : List (String × α) → Prop where
  | all (room : s.isFull = false) : s.Keeps s.sessions
  | rest {first : String × α} {kept : List (String × α)} (full : s.isFull = true)
      (split : s.sessions = first :: kept) : s.Keeps kept

theorem create_eq_some : s.create session = some (name, t) ↔ name = s.naming (s.made + 1) ∧
    ∃ kept, s.Keeps kept ∧
      t = { s with sessions := kept ++ [(name, session)], made := s.made + 1 } := by
  constructor
  · intro created
    simp only [create] at created
    split at created
    · rename_i full
      split at created
      · cases created
      · rename_i first kept split
        cases created
        exact ⟨rfl, kept, .rest full split, rfl⟩
    · rename_i room
      cases created
      exact ⟨rfl, s.sessions, .all (Bool.eq_false_iff.mpr room), rfl⟩
  · rintro ⟨rfl, kept, keeps, rfl⟩
    cases keeps with
    | all room => simp [create, room]
    | rest full split => simp [create, full, split]

theorem exists_create (session : α) (room : s.isFull = true → s.sessions ≠ []) :
    ∃ name t, s.create session = some (name, t) := by
  cases full : s.isFull with
  | false => exact ⟨_, _, create_eq_some.mpr ⟨rfl, _, .all full, rfl⟩⟩
  | true =>
    obtain ⟨first, kept, split⟩ := List.exists_cons_of_ne_nil (room full)
    exact ⟨_, _, create_eq_some.mpr ⟨rfl, _, .rest full split, rfl⟩⟩

theorem Keeps.sublist (keeps : s.Keeps kept) : kept.Sublist s.sessions := by
  cases keeps with
  | all _ => exact List.Sublist.refl _
  | rest _ split => exact split ▸ List.sublist_cons_self _ _

/-- Without its first session a store lacks that one and no other. -/
theorem Sound.find?_rest {first : String × α} (sound : s.Sound)
    (split : s.sessions = first :: kept) (other : String) :
    ({ s with sessions := kept } : Store α).find? other =
      if other = first.1 then none else s.find? other := by
  have distinct := sound.distinct
  rw [names, split, List.map_cons, List.nodup_cons] at distinct
  by_cases same : other = first.1
  · rw [if_pos same, find?_eq_none_iff, same]
    exact distinct.1
  · simp [find?, split, same, Ne.symm same]

theorem Keeps.find? (keeps : s.Keeps kept) (sound : s.Sound) (other : String) :
    ({ s with sessions := kept } : Store α).find? other = s.find? other ∨
      ({ s with sessions := kept } : Store α).find? other = none := by
  cases keeps with
  | all _ => exact .inl rfl
  | @rest first _ _ split =>
    rw [sound.find?_rest split]
    by_cases same : other = first.1
    · exact .inr (if_pos same)
    · exact .inl (if_neg same)

theorem find?_create (sound : s.Sound) (keeps : s.Keeps kept) (session : α) (made : Nat)
    (other : String) :
    ({ s with
        sessions := kept ++ [(s.naming (s.made + 1), session)]
        made := made } : Store α).find? other =
      if other = s.naming (s.made + 1) then some session
      else ({ s with sessions := kept } : Store α).find? other := by
  have rest := keeps.find? sound other
  simp only [Store.find?] at rest ⊢
  rw [List.find?_append, Option.map_or]
  by_cases same : other = s.naming (s.made + 1)
  · -- no older session has the new name, so the search gets to the end
    have absent := find?_eq_none_iff.mpr sound.unused
    simp only [Store.find?, ← same] at absent
    rw [absent, or_self] at rest
    rw [rest, if_pos same]
    simp [same]
  · simp [same, Ne.symm same]

/-! ## Soundness -/

/-- Names may be lost, and their order may change. -/
theorem Sound.of_subperm (sound : s.Sound) (capacity : t.capacity = s.capacity)
    (made : t.made = s.made) (naming : t.naming = s.naming) (fewer : t.names.Subperm s.names) :
    t.Sound := by
  refine ⟨naming ▸ sound.apart, ?_, ?_, ?_⟩
  · obtain ⟨old, same, part⟩ := fewer
    exact same.nodup_iff.mp (sound.distinct.sublist part)
  · intro name inside
    simpa only [Given, made, naming] using sound.given name (fewer.subset inside)
  · intro most limit
    have less : t.sessions.length ≤ s.sessions.length := by
      simpa only [names, List.length_map] using fewer.length_le
    rcases sound.bounded most (capacity ▸ limit) with nothing | few
    · left
      exact List.length_eq_zero_iff.mp (by simpa [nothing] using less)
    · right
      simp only [count] at few ⊢
      omega

theorem Sound.names_get (sound : s.Sound) (used : s.get name = some (session, t)) :
    t.names.Perm s.names := by
  obtain ⟨found, rfl⟩ := get_eq_some.mp used
  have inside : name ∈ s.names := mem_names_of_mem (mem_of_find? found)
  have moved : (s.without name ++ [(name, session)]).map Prod.fst =
      s.names.erase name ++ [name] := by
    rw [List.map_append, sound.distinct.erase_eq_filter, names, List.filter_map]
    rfl
  rw [names, moved]
  exact List.perm_append_comm.trans (List.perm_cons_erase inside).symm

theorem Sound.get (sound : s.Sound) (used : s.get name = some (session, t)) : t.Sound := by
  have names := sound.names_get used
  obtain ⟨-, rfl⟩ := get_eq_some.mp used
  exact sound.of_subperm rfl rfl rfl names.subperm

theorem Sound.put (sound : s.Sound) (name : String) (session : α) : (s.put name session).Sound :=
  sound.of_subperm rfl rfl rfl (names_put s name session ▸ List.Subperm.refl _)

theorem Sound.remove (sound : s.Sound) (removed : s.remove name = some (session, t)) : t.Sound := by
  obtain ⟨-, rfl⟩ := remove_eq_some.mp removed
  exact sound.of_subperm rfl rfl rfl ((List.filter_sublist.map _).subperm)

theorem Sound.clear (sound : s.Sound) : s.clear.Sound :=
  sound.of_subperm rfl rfl rfl (List.nil_sublist _).subperm

theorem Sound.create (sound : s.Sound) (created : s.create session = some (name, t)) :
    t.Sound := by
  obtain ⟨rfl, kept, keeps, rfl⟩ := create_eq_some.mp created
  have old : (kept.map Prod.fst).Sublist s.names := keeps.sublist.map _
  refine ⟨sound.apart, ?_, ?_, ?_⟩
  · rw [names, List.map_append, List.nodup_append_comm]
    exact List.nodup_cons.mpr ⟨fun inside => sound.unused (old.subset inside),
      sound.distinct.sublist old⟩
  · intro other inside
    rw [names, List.map_append] at inside
    rcases List.mem_append.mp inside with there | new
    · obtain ⟨n, first, le, same⟩ := sound.given other (old.subset there)
      exact ⟨n, first, Nat.le_succ_of_le le, same⟩
    · exact ⟨s.made + 1, Nat.succ_pos _, Nat.le_refl _, (List.mem_singleton.mp new).symm⟩
  · intro most limit
    right
    cases keeps with
    | all room =>
      have less : ¬most ≤ (s.count : Int) := by
        intro full
        cases room.symm.trans (isFull_iff.mpr ⟨most, limit, full⟩)
      simp only [count, List.length_append, List.length_singleton] at less ⊢
      omega
    | rest _ split =>
      rcases sound.bounded most limit with nothing | few
      · cases nothing.symm.trans split
      · simpa [count, split] using few

/-! ## What a new session finds -/

theorem Sound.find?_new (sound : s.Sound) (created : s.create session = some (name, t)) :
    t.find? name = some session := by
  obtain ⟨rfl, kept, keeps, rfl⟩ := create_eq_some.mp created
  exact (find?_create sound keeps session _ _).trans (if_pos rfl)

theorem Sound.not_given (sound : s.Sound) (created : s.create session = some (name, t)) :
    ¬s.Given name := by
  obtain ⟨rfl, -⟩ := create_eq_some.mp created
  exact sound.fresh

theorem given_of_create (created : s.create session = some (name, t)) : t.Given name := by
  obtain ⟨rfl, kept, -, rfl⟩ := create_eq_some.mp created
  exact ⟨s.made + 1, Nat.succ_pos _, Nat.le_refl _, rfl⟩

/-- Where a session has found a place there is one for a session alone. -/
theorem Sound.capacity_pos (sound : s.Sound) (created : s.create session = some (name, t))
    {most : Int} (limit : s.capacity = some most) : 0 < most := by
  have later := sound.create created
  obtain ⟨rfl, kept, -, rfl⟩ := create_eq_some.mp created
  rcases later.bounded most limit with nothing | few
  · exact absurd nothing (by simp)
  · simp only [count, List.length_append, List.length_cons] at few
    omega

/-! ## A session that is worked on -/

/-- A store in which at most one session has been looked up and put back. -/
inductive Touched (s : Store α) (name : String) : Store α → Prop where
  | not : s.Touched name s
  | used {session : α} {t : Store α} (found : s.get name = some (session, t)) : s.Touched name t
  | put {session : α} {t : Store α} (found : s.get name = some (session, t)) (new : α) :
    s.Touched name (t.put name new)

namespace Touched

theorem keeps (touched : s.Touched name t) :
    t.capacity = s.capacity ∧ t.made = s.made ∧ t.naming = s.naming := by
  cases touched with
  | not => exact ⟨rfl, rfl, rfl⟩
  | used found | put found new =>
    obtain ⟨-, rfl⟩ := get_eq_some.mp found
    exact ⟨rfl, rfl, rfl⟩

theorem sound (touched : s.Touched name t) (sound : s.Sound) : t.Sound := by
  cases touched with
  | not => exact sound
  | used found => exact sound.get found
  | put found new => exact (sound.get found).put _ _

theorem find?_other (touched : s.Touched name t) (apart : other ≠ name) :
    t.find? other = s.find? other := by
  cases touched with
  | not => rfl
  | used found => exact find?_get found other
  | put found new => rw [find?_put, if_neg apart, find?_get found]

theorem eq_of_absent (touched : s.Touched name t) (absent : s.find? name = none) : t = s := by
  have missed := get_eq_none.mpr absent
  cases touched with
  | not => rfl
  | used found | put found new => cases missed.symm.trans found

end Touched

end Store

end Walkthrough
