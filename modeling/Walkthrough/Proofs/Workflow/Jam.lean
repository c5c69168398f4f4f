import Walkthrough.Proofs.Attempt
import Walkthrough.Proofs.Workflow.Reading
import Walkthrough.Service.Basic

/-! Documents that are not refused and not read either. The fields of an interaction are taken
apart before anything is known of their form, and so are the attributes of a field; where they have
no parts, reading jams. It also jams where an id, a name or a type is to be shown that holds a whole
number with too many digits. It does so exactly if such a part is the first in reading order that is
not as it should be. -/
namespace Walkthrough

/-- How reading fails where it refuses nothing: a part has the wrong form, or it cannot be shown. -/
inductive Jam where
  | shape (e : ShapeError)
  | fault (f : Fault)
  deriving DecidableEq, Repr

def Jam.toError : Jam → DocumentError
  | shape e => .shape e
  | fault f => .fault f

def Partless (v : Data) : Prop := ∃ s : Scalar, v = .atom s ∧ ∀ t, s ≠ .text t

/-- Attributes jam if something is given of which no map can be made: it has no parts, or a part
that is not a key with a value. -/
def AttributesJam (v : Data) (e : ShapeError) : Prop :=
  v.isVoid = false ∧ ((Partless v ∧ e = .wrongKind) ∨
    (∀ label entries, v ≠ .map label entries) ∧ ∃ before part after,
      v.parts? = .ok (before ++ part :: after) ∧ (∃ pairs, before.mapM Value.pair? = .ok pairs) ∧
      part.pair? = .error e)

/-- A field jams if its attributes do, or before them its name; or if its type, which is none that
there is, cannot be shown for the refusal. -/
inductive FieldJams : Data → Jam → Prop where
  | name {label : Unit} {entries : Entries Unit} (described : DescribeField entries)
      (long : (entry entries "name").Overlong) : FieldJams (.map label entries) (.fault .tooManyDigits)
  | attributes {label : Unit} {entries : Entries Unit} {e : ShapeError}
      (described : DescribeField entries) (short : ¬(entry entries "name").Overlong)
      (jam : AttributesJam (entry entries "attributes") e) :
      FieldJams (.map label entries) (.shape e)
  | type {label : Unit} {entries : Entries Unit} (named : (entry entries "name").isVoid = false)
      (untyped : isFieldType (fieldType entries) = false) (long : (fieldType entries).Overlong) :
      FieldJams (.map label entries) (.fault .tooManyDigits)

/-- The fields of an interaction jam if something without parts is given for them, or if one of
them does and those before it can be read. -/
def FieldsJam (owner : String) (v : Data) (j : Jam) : Prop :=
  v.isVoid = false ∧ ((Partless v ∧ j = .shape .wrongKind) ∨ ∃ before field after,
    v.parts? = .ok (before ++ field :: after) ∧
    (∃ fields, before.mapM (Field.ofData owner) = .ok fields) ∧ FieldJams field j)

/-- A node jams if its id cannot be shown or a type that is kept cannot, if its fields jam, or if a node
in one of its blocks does and all that comes before that node can be read. -/
inductive Jams : Data → String → Jam → Prop where
  | id {label : Unit} {entries : Entries Unit} {defaultId : String}
      (long : (entry entries "id").Overlong) : Jams (.map label entries) defaultId (.fault .tooManyDigits)
  | type {label : Unit} {entries : Entries Unit} {defaultId id : String}
      (own : OwnId entries defaultId id) (other : ∀ t ∈ nodeTypes, nodeType entries ≠ .text t)
      (long : (nodeType entries).Overlong) : Jams (.map label entries) defaultId (.fault .tooManyDigits)
  | fields {label : Unit} {entries : Entries Unit} {defaultId id : String} {j : Jam}
      (own : OwnId entries defaultId id) (type : nodeType entries = .text "user_interaction")
      (jam : FieldsJam id (entry entries "fields") j) : Jams (.map label entries) defaultId j
  | block {label label' : Unit} {entries : Entries Unit} {defaultId id key : String}
      {keysBefore keysAfter : List String} {before after : List Data} {v : Data} {j : Jam}
      (own : OwnId entries defaultId id)
      (keys : blockKeys (nodeType entries) = keysBefore ++ key :: keysAfter)
      (earlier : ∃ blocks, keysBefore.mapM (fun k => readBlock entries k id) = .ok blocks)
      (block : entry entries key = .list label' (before ++ v :: after))
      (siblings : ∃ nodes, readNodes before (.block id key) 0 = .ok nodes)
      (jam : Jams v ((Place.block id key).childId before.length) j) :
      Jams (.map label entries) defaultId j

/-- A document jams if one of its nodes does and those before it can be read. -/
def DocumentJams (document : Data) (j : Jam) : Prop :=
  ∃ label before v after, unwrapped document = .list label (before ++ v :: after) ∧
    (∃ nodes, readNodes before .top 0 = .ok nodes) ∧ Jams v (Place.top.childId before.length) j

section Parts

variable {v : Data} {e : ShapeError} {j : Jam} {owner : String}

theorem Jam.toError_ne_flaw {flaw : Flaw} : j.toError ≠ .flaw flaw := by
  cases j <;> nofun

theorem Jam.eq_fault_iff {f : Fault} : j.toError = .fault f ↔ j = .fault f := by
  cases j <;> simp [toError]

theorem Jam.eq_shape_iff : j.toError = .shape e ↔ j = .shape e := by
  cases j <;> simp [toError]

theorem parts?_eq_error : v.parts? = .error e ↔ Partless v ∧ e = .wrongKind := by
  constructor
  · intro failed
    cases v with
    | list => cases failed
    | map => cases failed
    | atom s =>
      cases s with
      | text t => cases failed
      | null | missing | bool | number | date | instant =>
        cases failed
        exact ⟨⟨_, rfl, nofun⟩, rfl⟩
  · rintro ⟨⟨s, rfl, other⟩, rfl⟩
    cases s with
    | text t => exact absurd rfl (other t)
    | null | missing | bool | number | date | instant => rfl

theorem pairs?_of_not_map (other : ∀ label entries, v ≠ .map label entries) :
    v.pairs? = (do return Entries.ofList (← (← v.parts?).mapM Value.pair?)) := by
  cases v with
  | map label entries => exact absurd rfl (other label entries)
  | atom | list => rfl

theorem toEntries_eq_error : v.toEntries = .error e ↔ AttributesJam v e := by
  unfold Value.toEntries AttributesJam
  cases v.isVoid with
  | true => simp
  | false =>
    rw [if_neg Bool.false_ne_true, eq_self, true_and]
    by_cases isMap : ∃ label entries, v = .map label entries
    · obtain ⟨label, entries, rfl⟩ := isMap
      simp [Value.pairs?, Partless]
    · have other : ∀ label entries, v ≠ .map label entries := fun label entries same =>
        isMap ⟨label, entries, same⟩
      rw [pairs?_of_not_map other, bind_eq_error, parts?_eq_error]
      refine or_congr_right ⟨?_, ?_⟩
      · rintro ⟨parts, whole, failed⟩
        obtain failed | ⟨_, _, impossible⟩ := bind_eq_error.mp failed
        · obtain ⟨before, part, after, rfl, read, jam⟩ := mapM_eq_error.mp failed
          exact ⟨other, before, part, after, whole, read, jam⟩
        · cases impossible
      · rintro ⟨-, before, part, after, whole, read, jam⟩
        exact ⟨_, whole, bind_eq_error.mpr
          (.inl (mapM_eq_error.mpr ⟨before, part, after, rfl, read, jam⟩))⟩

theorem attributes_eq_error : FieldAttributes.ofData v = .error e ↔ AttributesJam v e := by
  rw [FieldAttributes.ofData, bind_eq_error, toEntries_eq_error]
  constructor
  · rintro (jam | ⟨_, _, impossible⟩)
    · exact jam
    · cases impossible
  · exact .inl

theorem shownText_eq_jam : shownText v = .error j.toError ↔ v.Overlong ∧ j = .fault .tooManyDigits := by
  rw [shownText_eq_error, Jam.eq_fault_iff]

theorem exists_shownText_iff : (∃ s, shownText v = .ok s) ↔ ¬v.Overlong := by
  rw [← Value.shown_eq_error_iff]
  simp only [shownText_eq_ok]
  cases v.shown <;> simp

theorem fieldJams_of_error (failed : Field.ofData owner v = .error j.toError) : FieldJams v j := by
  cases v with
  | atom | list => exact absurd (Except.error.inj failed).symm Jam.toError_ne_flaw
  | map label entries =>
    cases named : (entry entries "name").isVoid with
    | true =>
      rw [ofData_of_unnamed named] at failed
      exact absurd (Except.error.inj failed).symm Jam.toError_ne_flaw
    | false =>
      cases typed : isFieldType (fieldType entries) with
      | true =>
        have described : DescribeField entries := ⟨named, typed⟩
        obtain ⟨t, -, -, field⟩ := ofData_of_describe _ described
        rw [field] at failed
        obtain name | ⟨name, shown, rest⟩ := bind_eq_error.mp failed
        · obtain ⟨long, rfl⟩ := shownText_eq_jam.mp name
          exact .name described long
        · split at rest
          · cases rest
          · rename_i attributes
            cases Jam.eq_shape_iff.mp (Except.error.inj rest).symm
            have short := exists_shownText_iff.mp ⟨name, shown⟩
            exact .attributes described short (attributes_eq_error.mp attributes)
      | false =>
        rw [ofData_of_untyped named typed] at failed
        obtain type | ⟨type, -, rest⟩ := bind_eq_error.mp failed
        · obtain ⟨long, rfl⟩ := shownText_eq_jam.mp type
          exact .type named typed long
        · exact absurd (Except.error.inj rest).symm Jam.toError_ne_flaw

theorem field_of_jams (jams : FieldJams v j) : Field.ofData owner v = .error j.toError := by
  cases jams with
  | name described long =>
    obtain ⟨t, -, -, field⟩ := ofData_of_describe _ described
    rw [field, shownText_eq_error.mpr ⟨long, rfl⟩]
    rfl
  | attributes described short jam =>
    obtain ⟨t, -, -, field⟩ := ofData_of_describe _ described
    obtain ⟨name, shown⟩ := exists_shownText_iff.mpr short
    rw [field, shown, attributes_eq_error.mpr jam]
    rfl
  | type named untyped long =>
    rw [ofData_of_untyped named untyped, shownText_eq_error.mpr ⟨long, rfl⟩]
    rfl

theorem field_eq_error : Field.ofData owner v = .error j.toError ↔ FieldJams v j :=
  ⟨fieldJams_of_error, field_of_jams⟩

theorem fieldsOf_eq_error : fieldsOf owner v = .error j.toError ↔ FieldsJam owner v j := by
  unfold fieldsOf FieldsJam
  cases v.isVoid with
  | true => simp
  | false =>
    rw [if_neg Bool.false_ne_true, eq_self, true_and]
    cases parts : v.parts? with
    | error e' =>
      obtain ⟨partless, rfl⟩ := parts?_eq_error.mp parts
      rw [Except.error.injEq, eq_comm, Jam.eq_shape_iff]
      simp [partless]
    | ok items =>
      have parted : ¬Partless v := fun partless => by
        cases parts.symm.trans (parts?_eq_error.mpr ⟨partless, rfl⟩)
      simp only [mapM_eq_error, field_eq_error, parted, false_and, false_or, Except.ok.injEq]

end Parts

section Nodes

variable {entries : Entries Unit} {label : Unit} {defaultId : String} {d : DocumentError}

theorem readNodes_of_jam {place : Place} {before after : List Data} {v : Data} {i : Nat}
    (read : ∃ nodes, readNodes before place i = .ok nodes)
    (failed : readNode v (place.childId (i + before.length)) = .error d) :
    readNodes (before ++ v :: after) place i = .error d := by
  induction before generalizing i with
  | nil =>
    rw [List.nil_append, readNodes]
    exact bind_eq_error.mpr (.inl failed)
  | cons w before ih =>
    obtain ⟨nodes, read⟩ := read
    rw [readNodes] at read
    obtain ⟨n, first, rest⟩ := bind_eq_ok.mp read
    obtain ⟨ns, readRest, -⟩ := bind_eq_ok.mp rest
    have later := ih ⟨ns, readRest⟩ (by rwa [Nat.add_right_comm])
    rw [List.cons_append, readNodes]
    exact bind_eq_error.mpr (.inr ⟨n, first, map_eq_error.mpr later⟩)

theorem readBlock_eq_jam {key owner : String} {j : Jam} :
    readBlock entries key owner = .error j.toError ↔ ∃ label items,
      entry entries key = .list label items ∧
        readNodes items (.block owner key) 0 = .error j.toError := by
  simp [readBlock_eq_error, Jam.toError_ne_flaw]

theorem readNode_of_jams {v : Data} {defaultId : String} {j : Jam} (jams : Jams v defaultId j) :
    readNode v defaultId = .error j.toError := by
  -- from the part that jams outwards: each block is refused with the node in it
  induction jams with
  | id long => exact readNode_of_overlong long
  | type own other long =>
    exact readNode_eq_error.mpr (.inr ⟨_, own, .inr (.inr ⟨other, long, rfl⟩)⟩)
  | fields own type jam =>
    exact readNode_eq_error.mpr (.inr ⟨_, own, .inl ⟨type, fieldsOf_eq_error.mpr jam⟩⟩)
  | block own keys earlier block siblings jam ih =>
    have refused := readBlock_eq_jam.mpr
      ⟨_, _, block, readNodes_of_jam siblings (by rwa [Nat.zero_add])⟩
    exact readNode_eq_error.mpr
      (.inr ⟨_, own, .inr (.inl (mapM_eq_error.mpr ⟨_, _, _, keys, earlier, refused⟩))⟩)

end Nodes

theorem jams_inherited {j : Jam} : Inherited
    (fun v => ∀ defaultId, readNode v defaultId = .error j.toError → Jams v defaultId j)
    (fun items => ∀ place i, readNodes items place i = .error j.toError → ∃ before v after,
      items = before ++ v :: after ∧ (∃ nodes, readNodes before place i = .ok nodes) ∧
      Jams v (place.childId (i + before.length)) j) where
  atom s := by
    intro defaultId failed
    exact absurd (Except.error.inj failed).symm Jam.toError_ne_flaw
  list label items := by
    intro defaultId failed
    exact absurd (Except.error.inj failed).symm Jam.toError_ne_flaw
  map label entries ih := by
    intro defaultId failed
    obtain ⟨long, same⟩ | ⟨id, own, ⟨type, fields⟩ | blocks | ⟨other, long, same⟩⟩ :=
      readNode_eq_error.mp failed
    · cases Jam.eq_fault_iff.mp same
      exact .id long
    · exact .fields own type (fieldsOf_eq_error.mp fields)
    · obtain ⟨before, key, after, keys, earlier, refused⟩ := mapM_eq_error.mp blocks
      obtain ⟨label', items, block, inside⟩ := readBlock_eq_jam.mp refused
      obtain ⟨siblings, v, rest, rfl, read, jam⟩ := ih key label' items block _ 0 inside
      rw [Nat.zero_add] at jam
      exact .block own keys earlier block read jam
    · cases Jam.eq_fault_iff.mp same
      exact .type own other long
  nil := by
    intro place i failed
    cases failed
  cons v rest first later := by
    intro place i failed
    unfold readNodes at failed
    obtain here | ⟨n, read, more⟩ := bind_eq_error.mp failed
    · exact ⟨[], v, rest, rfl, ⟨[], rfl⟩, first _ here⟩
    · obtain ⟨before, w, after, rfl, ⟨nodes, others⟩, jam⟩ := later place _ (map_eq_error.mp more)
      refine ⟨v :: before, w, after, rfl, ⟨n :: nodes, ?_⟩, ?_⟩
      · rw [readNodes, read, others]
        rfl
      · rwa [Nat.add_right_comm] at jam

theorem readWorkflow_eq_jam {document : Data} {j : Jam} :
    readWorkflow document = .error j.toError ↔ DocumentJams document j := by
  unfold readWorkflow DocumentJams
  split
  · rename_i label items list
    constructor
    · intro failed
      obtain failed | ⟨nodes, -, impossible⟩ := bind_eq_error.mp failed
      · obtain ⟨before, v, after, rfl, read, jam⟩ := jams_inherited.holds_all items .top 0 failed
        rw [Nat.zero_add] at jam
        exact ⟨label, before, v, after, list, read, jam⟩
      · unfold checkIds at impossible
        split at impossible
        · exact absurd (Except.error.inj impossible).symm Jam.toError_ne_flaw
        · cases impossible
    · rintro ⟨label', before, v, after, same, read, jam⟩
      cases list.symm.trans same
      have failed := readNode_of_jams jam
      exact bind_eq_error.mpr (.inl (readNodes_of_jam read (by rwa [Nat.zero_add])))
  · rename_i other
    constructor
    · intro refused
      exact absurd (Except.error.inj refused).symm Jam.toError_ne_flaw
    · rintro ⟨label, before, v, after, same, -⟩
      exact absurd same (other label _)

namespace Service

variable {v : Service} {document : Data} {d : DocumentError}

theorem workflowOf_eq_document : v.workflowOf document = .error (.document d) ↔
    (∀ t, document ≠ .text t) ∧ (∀ flaw, d ≠ .flaw flaw) ∧ readWorkflow document = .error d := by
  unfold workflowOf
  split
  · rename_i name
    constructor
    · intro failed
      split at failed
      · cases failed
      · split at failed <;> cases failed
    · rintro ⟨other, -⟩
      exact absurd rfl (other name)
  · rename_i other
    cases read : readWorkflow document with
    | ok nodes => simp
    | error d' =>
      cases d' with
      | flaw f =>
        simp only [Except.error.injEq, reduceCtorEq, false_iff]
        rintro ⟨-, unflawed, same⟩
        exact unflawed f same.symm
      | shape | fault =>
        rw [and_iff_right other]
        constructor
        · rintro ⟨⟩
          simp
        · rintro ⟨-, ⟨⟩⟩
          rfl

theorem describeState_ne_document {session : String} {s : Simulation} :
    describeState session s ≠ .error (.document d) := by
  unfold describeState describe
  split <;> exact nofun

theorem startSession_eq_document : (v.startSession document).2 = .error (.document d) ↔
    (∀ t, document ≠ .text t) ∧ (∀ flaw, d ≠ .flaw flaw) ∧ readWorkflow document = .error d := by
  rw [← workflowOf_eq_document (v := v)]
  unfold startSession
  split
  · rename_i e failed
    simp [failed]
  · rename_i c complaint
    simp [complaint]
  · rename_i nodes found
    rw [found]
    constructor
    · intro failed
      split at failed
      · cases failed
      · cases failed
      · split at failed
        · cases failed
        · exact absurd failed describeState_ne_document
    · exact nofun

end Service

/-- A document is read or refused unless it jams. Reading fails with a jam exactly if the document has
it, and then starting a session does not answer with a state. -/
theorem readWorkflow_jams (v : Service) (document : Data) :
    (((∃ nodes, readWorkflow document = .ok nodes) ∨
      ∃ f, readWorkflow document = .error (.flaw f)) ↔ ∀ j, ¬DocumentJams document j) ∧
    ∀ j, (readWorkflow document = .error j.toError ↔ DocumentJams document j) ∧
      ((v.startSession document).2 = .error (.document j.toError) ↔
        (∀ t, document ≠ .text t) ∧ DocumentJams document j) := by
  refine ⟨?_, fun j => ⟨readWorkflow_eq_jam, ?_⟩⟩
  · simp only [← readWorkflow_eq_jam]
    cases readWorkflow document with
    | ok nodes => exact iff_of_true (.inl ⟨nodes, rfl⟩) nofun
    | error d =>
      cases d with
      | flaw f =>
        exact iff_of_true (.inr ⟨f, rfl⟩) fun j same =>
          Jam.toError_ne_flaw (Except.error.inj same).symm
      | shape e => exact iff_of_false nofun fun never => never (.shape e) rfl
      | fault f => exact iff_of_false nofun fun never => never (.fault f) rfl
  · rw [Service.startSession_eq_document, ← readWorkflow_eq_jam]
    simp [Jam.toError_ne_flaw]

def truthForFields : Data :=
  .ofList [.ofEntries [(.text "type", .text "user_interaction"), (.text "fields", .bool true)]]

theorem truthForFields_not_refused :
    ¬ ((∃ nodes, readWorkflow truthForFields = .ok nodes) ∨
      ∃ f, readWorkflow truthForFields = .error (.flaw f)) := by
  have jams : readWorkflow truthForFields = .error (.shape .wrongKind) := rfl
  rintro (⟨nodes, read⟩ | ⟨f, refused⟩)
  · cases jams.symm.trans read
  · cases jams.symm.trans refused

end Walkthrough
