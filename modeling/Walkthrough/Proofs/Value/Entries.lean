import Walkthrough.Value.Conversion

/-! Entries under a text. A text addresses exactly the entries whose key it is, so what a map holds
under it after writing, erasing or adding entries can be told from the entries alone, whatever
other keys there are. -/
namespace Walkthrough

theorem Scalar.sameKey_text_right (k : Scalar) (name : String) :
    k.sameKey (.text name) = true ↔ k = .text name := by
  cases k <;> simp [sameKey, keyNumber?]

theorem Scalar.sameKey_text_left (k : Scalar) (name : String) :
    (Scalar.text name).sameKey k = true ↔ k = .text name := by
  cases k with
  | text t => simpa [sameKey, keyNumber?] using eq_comm
  | _ => simp [sameKey, keyNumber?]

namespace Entries

variable {ι : Type} {es new : Entries ι} {k : Scalar} {v : Value ι} {name : String}

@[simp] theorem field?_nil : field? ([] : Entries ι) name = none := rfl

@[simp] theorem field?_cons : field? ((k, v) :: es) name =
    if k = .text name then some v else field? es name := by
  by_cases same : k = .text name
  · have here : k.sameKey (.text name) = true := (Scalar.sameKey_text_right k name).mpr same
    simp only [field?, get?, List.find?_cons, here, if_pos same, Option.map_some]
  · have other : k.sameKey (.text name) = false := by
      rw [← Bool.not_eq_true, Scalar.sameKey_text_right]
      exact same
    simp only [field?, get?, List.find?_cons, other, if_neg same]

theorem field?_append : field? (es ++ new) name = (field? es name).or (field? new name) := by
  induction es with
  | nil => simp
  | cons e es ih =>
    obtain ⟨k, v⟩ := e
    by_cases same : k = .text name <;> simp [same, ih]

theorem field?_concat_eq_none_iff {own : String} : field? (es ++ [(.text own, v)]) name = none ↔
    field? es name = none ∧ own ≠ name := by
  rw [field?_append, Option.or_eq_none_iff]
  simp

theorem field?_without {own : String} (other : own ≠ name) :
    field? (es ++ (.text own, v) :: new) name = field? (es ++ new) name := by
  simp [field?_append, other]

theorem field?_eq_none_iff : field? es name = none ↔ ∀ e ∈ es, e.1 ≠ .text name := by
  induction es with
  | nil => simp
  | cons e es ih =>
    obtain ⟨k, v⟩ := e
    by_cases same : k = .text name <;> simp [same, ih]

/-- What is found under a text stands behind entries that have other keys. -/
theorem exists_of_field? (found : field? es name = some v) :
    ∃ others back, es = others ++ (.text name, v) :: back ∧ field? others name = none := by
  induction es with
  | nil => cases found
  | cons e es ih =>
    obtain ⟨k, w⟩ := e
    rw [field?_cons] at found
    by_cases same : k = .text name
    · rw [if_pos same] at found
      cases found
      exact ⟨[], es, by rw [same, List.nil_append], rfl⟩
    · rw [if_neg same] at found
      obtain ⟨others, back, rfl, absent⟩ := ih found
      exact ⟨(k, w) :: others, back, rfl, by rw [field?_cons, if_neg same, absent]⟩

/-- Writing a key changes what stands under that key and nothing else. -/
theorem field?_insert : field? (es.insert k v) name =
    if k = .text name then some v else field? es name := by
  induction es with
  | nil => simp [insert]
  | cons e es ih =>
    obtain ⟨k', v'⟩ := e
    by_cases same : k'.sameKey k = true
    · have both : k' = .text name ↔ k = .text name := by
        constructor
        · rintro rfl
          exact (Scalar.sameKey_text_left k name).mp same
        · rintro rfl
          exact (Scalar.sameKey_text_right k' name).mp same
      rw [insert, if_pos same, field?_cons, field?_cons]
      by_cases here : k = .text name
      · rw [if_pos here, if_pos (both.mpr here)]
      · rw [if_neg here, if_neg (mt both.mp here), if_neg (mt both.mp here)]
    · rw [insert, if_neg same, field?_cons, field?_cons, ih]
      by_cases here : k' = .text name
      · have apart : k ≠ .text name := by
          rintro rfl
          exact same ((Scalar.sameKey_text_right k' name).mpr here)
        rw [if_pos here, if_neg apart, if_pos here]
      · rw [if_neg here, if_neg here]

/-- A key that is there keeps its place. -/
theorem keys_insert_of_present {w : Value ι} (present : field? es name = some w) (v : Value ι) :
    (es.insert (.text name) v).map Prod.fst = es.map Prod.fst := by
  induction es with
  | nil => cases present
  | cons e es ih =>
    obtain ⟨k, x⟩ := e
    rw [insert]
    by_cases same : k.sameKey (.text name) = true
    · rw [if_pos same]
      rfl
    · have apart : k ≠ .text name := mt (Scalar.sameKey_text_right k name).mpr same
      rw [field?_cons, if_neg apart] at present
      rw [if_neg same, List.map_cons, List.map_cons, ih present]

/-- A map to which entries are added holds the last one that is added under a text, or else what it
held before. -/
theorem field?_merge_ofList : field? (es.merge new) name =
    (field? (ofList new) name).or (field? es name) := by
  have last (pairs : Entries ι) : field? (pairs.merge new) name =
      (field? new.reverse name).or (field? pairs name) := by
    induction new generalizing pairs with
    | nil => simp [merge]
    | cons e new ih =>
      obtain ⟨k, v⟩ := e
      have step : pairs.merge ((k, v) :: new) = (pairs.insert k v).merge new := rfl
      rw [step, ih, field?_insert, List.reverse_cons, field?_append, Option.or_assoc]
      by_cases same : k = .text name <;> simp [same]
  rw [ofList, last es, last [], field?_nil, Option.or_none]

theorem insert_of_absent (absent : field? es name = none) :
    es.insert (.text name) v = es ++ [(.text name, v)] := by
  induction es with
  | nil => rfl
  | cons e es ih =>
    obtain ⟨k, w⟩ := e
    have others := field?_eq_none_iff.mp absent
    have other : k.sameKey (.text name) = false := by
      rw [← Bool.not_eq_true, Scalar.sameKey_text_right]
      exact others _ (List.mem_cons_self ..)
    have rest := ih (field?_eq_none_iff.mpr fun e inside => others e (List.mem_cons_of_mem _ inside))
    simp [insert, other, rest]

/-- Entries under texts of their own come behind the entries that are there. -/
theorem merge_of_absent (own : (new.map Prod.fst).Nodup) (text : ∀ e ∈ new, ∃ t, e.1 = .text t)
    (absent : ∀ e ∈ new, ∀ t, e.1 = .text t → field? es t = none) : es.merge new = es ++ new := by
  induction new generalizing es with
  | nil => simp [merge]
  | cons e new ih =>
    obtain ⟨k, v⟩ := e
    obtain ⟨t, rfl⟩ : ∃ t, k = .text t := text _ (List.mem_cons_self ..)
    rw [List.map_cons, List.nodup_cons] at own
    have step : es.merge ((.text t, v) :: new) = (es.insert (.text t) v).merge new := rfl
    rw [step, insert_of_absent (absent _ (List.mem_cons_self ..) t rfl),
      ih own.2 fun e inside => text e (List.mem_cons_of_mem _ inside), List.append_assoc,
      List.singleton_append]
    intro e inside u same
    rw [field?_append, absent e (List.mem_cons_of_mem _ inside) u same]
    have apart : u ≠ t := by
      rintro rfl
      exact own.1 (List.mem_map.mpr ⟨e, inside, same⟩)
    simp [Ne.symm apart]

end Entries

@[simp] theorem Value.toEntries_ofEntries (entries : Entries Unit) :
    (ofEntries entries).toEntries = .ok entries := by
  cases entries <;> rfl

end Walkthrough
