import Walkthrough.Proofs.Number.Limit
import Walkthrough.Proofs.Value.Contents
import Walkthrough.Value.Equality

/-! Loose equality turn by turn. A comparison that does not have its answer at hand brings one of its
operands to another kind and begins anew. It can fail where a whole number with too many digits is
read or written, and whether it ends is not said by the rule. It does end: a truth value becomes a
number and a container becomes text, and neither changes again. -/
namespace Walkthrough

open Numeral

theorem Number.equals_comm (m n : Number) : m.equals n = n.equals m := by
  unfold Number.equals
  cases m.position? <;> cases n.position? <;> simp [BEq.comm]

theorem Instant.same_comm (s t : Instant) : s.same t = t.same s := by
  simp [Instant.same, BEq.comm]

namespace Scalar

variable {s t : Scalar}

theorem toNumber_eq_error {f : Fault} (fails : s.toNumber = .error f) : f = .tooManyDigits := by
  cases s with
  | text text =>
    rw [toNumber] at fails
    split at fails
    · cases fails
    · exact (parse?_eq_error.mp (map_eq_error.mp fails)).1
  | _ => cases fails

theorem toNumber_of_tooLong {s : String} (long : tooLong s.toList = true) :
    (Scalar.text s).toNumber = .error .tooManyDigits := by
  rw [toNumber, parse?_eq_error.mpr ⟨rfl, long⟩, not_allBlank_of_tooLong long]
  rfl

theorem equals_toNumber_comm (s t : Scalar) :
    (do let m ← s.toNumber; let n ← t.toNumber; return m.equals n : Except Fault Bool) =
      do let m ← t.toNumber; let n ← s.toNumber; return m.equals n := by
  cases first : s.toNumber with
  | error f =>
    cases second : t.toNumber with
    | error g => rw [toNumber_eq_error first, toNumber_eq_error second]
    | ok n => rfl
  | ok m =>
    cases t.toNumber with
    | error g => rfl
    | ok n => exact congrArg Except.ok (m.equals_comm n)

theorem looseEquals_comm (s t : Scalar) : s.looseEquals t = t.looseEquals s := by
  cases s <;> cases t <;>
    first
      | exact equals_toNumber_comm _ _
      | simp [looseEquals, Instant.same_comm, BEq.comm]

/-- A truth value is compared as the number that it counts as. -/
theorem looseEquals_bool (p : Bool) (t : Scalar) :
    (Scalar.bool p).looseEquals t = (Scalar.number (.ofBool p)).looseEquals t := by
  cases t <;> rfl

/-- Whole numbers, and texts that spell one, have no more digits than the limit. -/
def Modest : Scalar → Prop
  | .number n => n.digits ≤ digitLimit
  | .text s => tooLong s.toList = false
  | _ => True

theorem exists_toNumber {s : String} (short : tooLong s.toList = false) :
    ∃ n, (Scalar.text s).toNumber = .ok n := by
  rw [toNumber, parse?_eq_ok.mpr ⟨short, rfl⟩]
  split
  · exact ⟨_, rfl⟩
  · exact ⟨_, rfl⟩

end Scalar

namespace Value

variable {ι : Type}

inductive Turn (ι : Type) where
  | answer (equal : Bool)
  | again (a b : Value ι)
  | failure

/-- Goes on with the text of a value, if it can be written. -/
def whenWritten (v : Value ι) (next : Value ι → Turn ι) : Turn ι :=
  match v.string with
  | .error _ => .failure
  | .ok s => next (.text s)

/-- Answers by the number of a text, if it can be read. -/
def whenRead (s : String) (equal : Number → Bool) : Turn ι :=
  match (Scalar.text s).toNumber with
  | .error _ => .failure
  | .ok n => .answer (equal n)

/-- What the comparison of two values does first. -/
def turn (same : ι → ι → Bool) (a b : Value ι) : Turn ι :=
  if a.isNullish || b.isNullish then .answer (a.isNullish && b.isNullish)
  else
    match a, b with
    | .list x _, .list y _ | .list x _, .map y _ | .map x _, .list y _ | .map x _, .map y _ =>
      .answer (same x y)
    -- from here on one of the operands is a scalar
    | .bool p, b => .again (.number (.ofBool p)) b
    | a, .bool q => .again a (.number (.ofBool q))
    | .number m, .number n => .answer (m.equals n)
    | .text s, .text t => .answer (s == t)
    | .number m, .text t => whenRead t m.equals
    | .text s, .number n => whenRead s (·.equals n)
    | .atom (.date c), .atom (.date d) => .answer (c == d)
    | .atom (.instant s), .atom (.instant t) => .answer (s.same t)
    | .atom _, .atom _ => .answer false
    | a, .atom t => a.whenWritten fun s => .again s (.atom t)
    | .atom s, b => b.whenWritten fun t => .again (.atom s) t

/-- The comparison comes to an end with an answer. -/
inductive Ends (same : ι → ι → Bool) : Value ι → Value ι → Bool → Prop where
  | now {a b : Value ι} {r : Bool} (answers : turn same a b = .answer r) : Ends same a b r
  | later {a b c d : Value ι} {r : Bool} (goes : turn same a b = .again c d)
      (rest : Ends same c d r) : Ends same a b r

/-- Every whole number in a value is modest, at any depth. -/
abbrev Modest (v : Value ι) : Prop := v.Every Scalar.Modest fun _ => True

section Modesty

variable {v : Value ι} {items : List (Value ι)}

/-- Several items have a comma between them; a single one shows what it is itself. -/
theorem not_tooLong_intercalate {texts : List String}
    (short : ∀ text ∈ texts, tooLong text.toList = false) :
    tooLong (",".intercalate texts).toList = false := by
  match texts with
  | [] => decide
  | [single] =>
    rw [String.intercalate_singleton]
    exact short single List.mem_cons_self
  | first :: second :: rest =>
    have comma : ',' ∈ (",".intercalate (first :: second :: rest)).toList := by
      rw [String.toList_intercalate]
      simp only [List.map_cons, List.intercalate_cons_cons]
      simp
    exact not_tooLong_of_mem comma (by decide)

theorem displays_eq_ok (each : ∀ v ∈ items, ∃ s, v.string = .ok s ∧ tooLong s.toList = false) :
    ∃ texts, displays items = .ok texts ∧ ∀ text ∈ texts, tooLong text.toList = false := by
  induction items with
  | nil => exact ⟨[], rfl, List.forall_mem_nil _⟩
  | cons v rest ih =>
    obtain ⟨⟨s, written, short⟩, later⟩ := List.forall_mem_cons.mp each
    obtain ⟨texts, all, shorts⟩ := ih later
    rw [displays, all, written]
    split
    · exact ⟨_, rfl, List.forall_mem_cons.mpr ⟨by decide, shorts⟩⟩
    · exact ⟨_, rfl, List.forall_mem_cons.mpr ⟨short, shorts⟩⟩

/-- A modest value can be written, and no number with too many digits is read from that. -/
theorem Every.exists_string (modest : v.Modest) :
    ∃ s, v.string = .ok s ∧ tooLong s.toList = false := by
  induction modest with
  | @atom s here =>
    match s with
    | .null => exact ⟨"null", rfl, by decide⟩
    | .missing => exact ⟨"undefined", rfl, by decide⟩
    | .bool true => exact ⟨"true", rfl, by decide⟩
    | .bool false => exact ⟨"false", rfl, by decide⟩
    | .number (.int n) =>
      refine ⟨toString n, Number.written_eq_ok.mpr ⟨here, rfl⟩, ?_⟩
      exact (tooLong_toString n).trans (decide_eq_false (Nat.not_lt.mpr here))
    | .number (.double d) =>
      exact ⟨d.plainText, Number.written_eq_ok.mpr ⟨Nat.zero_le _, rfl⟩, not_tooLong_plainText d⟩
    | .text s => exact ⟨s, rfl, here⟩
    | .date d => exact ⟨d.isoText, rfl, not_tooLong_isoText d⟩
    | .instant t => exact ⟨t.isoText, rfl, t.not_tooLong_isoText⟩
  | list own all ih =>
    obtain ⟨texts, written, shorts⟩ := displays_eq_ok ih
    exact ⟨",".intercalate texts, map_eq_ok.mpr ⟨texts, written, rfl⟩, not_tooLong_intercalate shorts⟩
  | map => exact ⟨"[object Object]", rfl, by decide⟩

end Modesty

section Comparison

variable {same : ι → ι → Bool} {a b : Value ι}

/-- Where a scalar is among the operands, they meet as scalars. -/
theorem looseEquals_eq (first : a.isNullish = false) (second : b.isNullish = false)
    (scalar : a.label? = none ∨ b.label? = none) : a.looseEquals same b =
      a.primitive >>= fun s => b.primitive >>= fun t => s.looseEquals t := by
  rw [looseEquals, first, second]
  rcases scalar with none | none <;> rw [none]
  · rfl
  · cases a.label? <;> rfl

theorem looseEquals_comm (symmetric : ∀ x y, same x y = same y x) (a b : Value ι) :
    a.looseEquals same b = b.looseEquals same a := by
  unfold looseEquals
  rw [Bool.or_comm, Bool.and_comm]
  split
  · rfl
  · match a, b with
    | .atom s, .atom t => exact s.looseEquals_comm t
    | .atom s, .list x items =>
      exact bind_congr (x := (Value.list x items).primitive) fun t => s.looseEquals_comm t
    | .list x items, .atom t =>
      exact bind_congr (x := (Value.list x items).primitive) fun s => s.looseEquals_comm t
    | .atom s, .map x entries =>
      exact bind_congr (x := (Value.map x entries).primitive) fun t => s.looseEquals_comm t
    | .map x entries, .atom t =>
      exact bind_congr (x := (Value.map x entries).primitive) fun s => s.looseEquals_comm t
    | .list x _, .list y _ | .list x _, .map y _ | .map x _, .list y _ | .map x _, .map y _ =>
      exact congrArg Except.ok (symmetric x y)

/-- How often a value can still change its kind. -/
def changes : Value ι → Nat
  | .bool _ | .list _ _ | .map _ _ => 1
  | _ => 0

/-- One turn has the right answer, or it leaves operands that compare alike and change less often. -/
inductive Settles (same : ι → ι → Bool) (a b : Value ι) : Prop where
  | answer {r : Bool} (answers : turn same a b = .answer r) (right : a.looseEquals same b = .ok r)
  | again {c d : Value ι} (goes : turn same a b = .again c d) (first : c.Modest) (second : d.Modest)
      (alike : c.looseEquals same d = a.looseEquals same b)
      (fewer : c.changes + d.changes < a.changes + b.changes)

theorem modest_ofBool (b : Bool) : (Value.number (.ofBool b) : Value ι).Modest := by
  have few (b : Bool) : (Number.ofBool b).digits ≤ digitLimit := by
    cases b <;> decide
  exact .atom (few b)

theorem settles_read {s : String} {equal : Number → Bool} (modest : (Value.text s : Value ι).Modest)
    (goes : turn same a b = whenRead s equal)
    (right : a.looseEquals same b = (Scalar.text s).toNumber.map equal) : Settles same a b := by
  obtain ⟨n, read⟩ := Scalar.exists_toNumber (Value.every_atom_iff.mp modest)
  rw [whenRead, read] at goes
  rw [read] at right
  exact .answer goes right

theorem settles_bool_left {p : Bool} (given : b.isNullish = false) (second : b.Modest) :
    Settles same (.bool p) b := by
  refine .again (c := .number (.ofBool p)) (d := b) ?_ (modest_ofBool p) second ?_ ?_
  · rw [turn, given]
    rfl
  · rw [looseEquals_eq rfl given (.inl rfl), looseEquals_eq rfl given (.inl rfl)]
    exact bind_congr (x := b.primitive) fun t => (Scalar.looseEquals_bool p t).symm
  · exact Nat.add_lt_add_right Nat.one_pos _

theorem settles_bool_right {q : Bool} (given : a.isNullish = false) (other : ∀ p, a ≠ .bool p)
    (first : a.Modest) : Settles same a (.bool q) := by
  refine .again (c := a) (d := .number (.ofBool q)) ?_ first (modest_ofBool q) ?_ ?_
  · rw [turn, given]
    · rfl
    · exact other
  · rw [looseEquals_eq given rfl (.inr rfl), looseEquals_eq given rfl (.inr rfl)]
    refine bind_congr (x := a.primitive) fun s => ?_
    change s.looseEquals (.number (.ofBool q)) = s.looseEquals (.bool q)
    rw [s.looseEquals_comm, s.looseEquals_comm, Scalar.looseEquals_bool]
  · exact Nat.add_lt_add_left Nat.one_pos _

theorem settles_atoms {s t : Scalar} (first : (Value.atom s : Value ι).Modest)
    (second : (Value.atom t : Value ι).Modest) : Settles same (.atom s) (.atom t) := by
  match s, t with
  | .null, t | .missing, t => cases t <;> exact .answer rfl rfl
  | s, .null | s, .missing => cases s <;> exact .answer rfl rfl
  | .bool p, .bool _ | .bool p, .number _ | .bool p, .text _ | .bool p, .date _ | .bool p, .instant _ =>
    exact settles_bool_left rfl second
  | .number _, .bool q | .text _, .bool q | .date _, .bool q | .instant _, .bool q =>
    exact settles_bool_right rfl nofun first
  | .number m, .text t => exact settles_read second rfl rfl
  | .text s, .number n => exact settles_read first rfl rfl
  | .number _, .number _ | .text _, .text _ | .date _, .date _ | .instant _, .instant _ =>
    exact .answer rfl rfl
  | .date _, .number _ | .date _, .text _ | .date _, .instant _ | .instant _, .number _
  | .instant _, .text _ | .instant _, .date _ | .number _, .date _ | .number _, .instant _
  | .text _, .date _ | .text _, .instant _ => exact .answer rfl rfl

theorem settles_written_left (goes : turn same a b = a.whenWritten fun s => .again s b)
    (changes : a.changes = 1) (first : a.Modest) (second : b.Modest)
    (alike : ∀ s, a.string = .ok s → (Value.text s).looseEquals same b = a.looseEquals same b) :
    Settles same a b := by
  obtain ⟨s, written, short⟩ := first.exists_string
  rw [whenWritten, written] at goes
  refine .again goes (.atom short) second (alike s written) ?_
  rw [changes]
  exact Nat.add_lt_add_right Nat.one_pos _

theorem settles_written_right (goes : turn same a b = b.whenWritten fun t => .again a t)
    (changes : b.changes = 1) (first : a.Modest) (second : b.Modest)
    (alike : ∀ t, b.string = .ok t → a.looseEquals same (.text t) = a.looseEquals same b) :
    Settles same a b := by
  obtain ⟨t, written, short⟩ := second.exists_string
  rw [whenWritten, written] at goes
  refine .again goes first (.atom short) (alike t written) ?_
  rw [changes]
  exact Nat.add_lt_add_left Nat.one_pos _

theorem settles (first : a.Modest) (second : b.Modest) : Settles same a b := by
  match a, b with
  | .atom s, .atom t => exact settles_atoms first second
  | .list _ _, .list _ _ | .list _ _, .map _ _ | .map _ _, .list _ _ | .map _ _, .map _ _ =>
    exact .answer rfl rfl
  | .list _ _, .atom t | .map _ _, .atom t =>
    match t with
    | .null | .missing => exact .answer rfl rfl
    | .bool q => exact settles_bool_right rfl nofun first
    | .number _ | .text _ | .date _ | .instant _ =>
      refine settles_written_left rfl rfl first second fun s written => ?_
      rw [looseEquals_eq rfl rfl (.inr rfl), looseEquals_eq rfl rfl (.inr rfl)]
      simp only [primitive, written]
      rfl
  | .atom s, .list _ _ | .atom s, .map _ _ =>
    match s with
    | .null | .missing => exact .answer rfl rfl
    | .bool p => exact settles_bool_left rfl second
    | .number _ | .text _ | .date _ | .instant _ =>
      refine settles_written_right rfl rfl first second fun t written => ?_
      rw [looseEquals_eq rfl rfl (.inl rfl), looseEquals_eq rfl rfl (.inl rfl)]
      simp only [primitive, written]
      rfl

theorem exists_ends (first : a.Modest) (second : b.Modest) :
    ∃ r, a.looseEquals same b = .ok r ∧ Ends same a b r := by
  -- every turn without an answer leaves operands that can change less often
  induction count : a.changes + b.changes using Nat.strongRecOn generalizing a b with
  | ind n ih =>
    have step : Settles same a b := settles first second
    cases step with
    | answer answers right => exact ⟨_, right, .now answers⟩
    | again goes first second alike fewer =>
      obtain ⟨r, right, ends⟩ := ih _ (count ▸ fewer) first second rfl
      exact ⟨r, alike ▸ right, .later goes ends⟩

theorem Ends.unique {r r' : Bool} (one : Ends same a b r) (other : Ends same a b r') : r = r' := by
  induction one with
  | now answers =>
    cases other with
    | now answers' =>
      rw [answers] at answers'
      cases answers'
      rfl
    | later goes => cases answers.symm.trans goes
  | later goes rest ih =>
    cases other with
    | now answers => cases answers.symm.trans goes
    | later goes' rest' =>
      cases goes.symm.trans goes'
      exact ih rest'

/-- A number is not compared with a text of too many digits. -/
theorem not_ends_of_tooLong {s : String} {m : Number} {r : Bool} (long : tooLong s.toList = true) :
    ¬Ends same (.number m) (.text s) r := by
  have fails : turn same (.number m) (.text s) = .failure := by
    change whenRead s m.equals = _
    rw [whenRead, Scalar.toNumber_of_tooLong long]
  rintro (answers | ⟨goes, -⟩)
  · cases fails.symm.trans answers
  · cases fails.symm.trans goes

/-- A comparison comes to an end, with one answer, and the order of its operands makes no difference. -/
theorem ends_iff_symmetric (symmetric : ∀ x y, same x y = same y x) (first : a.Modest)
    (second : b.Modest) :
    ∃ r, a.looseEquals same b = .ok r ∧ (∀ r', Ends same a b r' ↔ r' = r) ∧
      b.looseEquals same a = .ok r := by
  obtain ⟨r, value, ends⟩ : ∃ r, a.looseEquals same b = .ok r ∧ Ends same a b r :=
    exists_ends first second
  refine ⟨r, value, fun r' => ⟨fun other => other.unique ends, ?_⟩, ?_⟩
  · rintro rfl
    exact ends
  · rwa [looseEquals_comm symmetric]

theorem ends_iff_symmetric_nested :
    let same : Nat → Nat → Bool := fun x y => x == y
    let a : Value Nat := .bool true
    let b : Value Nat := .list 3 [.list 4 [.text " 0x1\n"]]
    (∀ x y, same x y = same y x) ∧ a.Modest ∧ b.Modest ∧ a.looseEquals same b = .ok true ∧
      (∀ r, Ends same a b r ↔ r = true) ∧ b.looseEquals same a = .ok true := by
  intro same a b
  have symmetric : ∀ x y, same x y = same y x := fun x y => BEq.comm
  have first : a.Modest := .atom trivial
  have text : (Scalar.text " 0x1\n").Modest := (by decide : tooLong " 0x1\n".toList = false)
  have second : b.Modest := by simpa [b] using text
  obtain ⟨r, value, ends, swapped⟩ := ends_iff_symmetric symmetric first second
  have equal : a.looseEquals same b = .ok true := by decide +kernel
  cases value.symm.trans equal
  exact ⟨symmetric, first, second, equal, ends, swapped⟩

end Comparison

end Value

end Walkthrough
