import Walkthrough.Proofs.Attempt
import Walkthrough.Proofs.Value.Entries
import Walkthrough.Proofs.Value.Overlong
import Walkthrough.Workflow.Document

/-! What reading a node comes to, said once for each type. The type of a node decides which of its
entries are looked at; a type that is none of the five known ones keeps the entries as they are.
Every property of reading is derived from these equations. -/
namespace Walkthrough

/-- The types of nodes that are not kept as they are. -/
def nodeTypes : List String :=
  ["user_interaction", "api_call", "decision", "while_loop", "do_while"]

/-- The id of a node: its own as it is shown, or else the one of its place. -/
def OwnId (entries : Entries Unit) (defaultId id : String) : Prop :=
  ((entry entries "id").orElse (.text defaultId)).shown = .ok id

/-- The type of a field, `text` if it has none. -/
def fieldType (entries : Entries Unit) : Data := (entries.field? "type").getD (.text "text")

/-- The keys under which nodes of a type have blocks. -/
def blockKeys : Data → List String
  | .text "decision" => ["if_block", "else_block"]
  | .text "while_loop" => ["actions"]
  | .text "do_while" => ["actions"]
  | _ => []

/-- Entries that name a field and give it a type that there is. -/
structure DescribeField (entries : Entries Unit) : Prop where
  named : (entry entries "name").isVoid = false
  typed : isFieldType (fieldType entries) = true

/-- The nodes of a block, given what stands under its key. -/
def blockOf (key owner : String) : Data → Except DocumentError (List Node)
  | .list _ items => readNodes items (.block owner key) 0
  | v => if v.isVoid then .ok [] else .error (.flaw (.blockNotList key owner))

section Fields

variable {entries : Entries Unit} {label : Unit} {owner : String} {v : Data}

theorem isFieldType_iff : isFieldType v = true ↔ ∃ t ∈ fieldTypes, v = .text t := by
  unfold isFieldType
  split
  · simp
  · rename_i other
    exact ⟨nofun, fun ⟨t, _, same⟩ => absurd same (other t)⟩

theorem shownText_eq_ok {s : String} : shownText v = .ok s ↔ v.shown = .ok s := mapError_eq_ok

theorem shownText_eq_error {d : DocumentError} :
    shownText v = .error d ↔ v.Overlong ∧ d = .fault .tooManyDigits := by
  unfold shownText
  constructor
  · intro fails
    cases shown : v.shown with
    | error f =>
      rw [shown] at fails
      cases fails
      obtain ⟨long, rfl⟩ := Value.shown_eq_error.mp shown
      exact ⟨long, rfl⟩
    | ok s =>
      rw [shown] at fails
      cases fails
  · rintro ⟨long, rfl⟩
    rw [Value.shown_eq_error.mpr ⟨long, rfl⟩]
    rfl

/-- A field that is described has its name shown and its attributes read. -/
theorem ofData_of_describe (owner : String) (described : DescribeField entries) :
    ∃ t ∈ fieldTypes, fieldType entries = .text t ∧
      Field.ofData owner (.map label entries) = (do
        let name ← shownText (entry entries "name")
        match FieldAttributes.ofData (entry entries "attributes") with
        | .ok attributes => .ok ⟨name, t, attributes⟩
        | .error e => .error (.shape e)) := by
  obtain ⟨t, member, type⟩ := isFieldType_iff.mp described.typed
  refine ⟨t, member, type, ?_⟩
  have typed := described.typed
  unfold fieldType at type typed
  rw [Field.ofData, described.named, if_neg Bool.false_ne_true]
  refine (if_pos typed).trans ?_
  rw [type]
  rfl

theorem ofData_of_unnamed (unnamed : (entry entries "name").isVoid = true) :
    Field.ofData owner (.map label entries) = .error (.flaw (.fieldWithoutName owner)) := by
  rw [Field.ofData, unnamed]
  rfl

theorem ofData_of_untyped (named : (entry entries "name").isVoid = false)
    (untyped : isFieldType (fieldType entries) = false) :
    Field.ofData owner (.map label entries) = (do
      let type ← shownText (fieldType entries)
      .error (.flaw (.unsupportedField type owner))) := by
  rw [Field.ofData, named, if_neg Bool.false_ne_true]
  exact if_neg (Bool.eq_false_iff.mp untyped)

theorem flaw_of_ofData {flaw : Flaw} (refused : Field.ofData owner v = .error (.flaw flaw)) :
    flaw = .fieldWithoutName owner ∨ ∃ type, flaw = .unsupportedField type owner := by
  cases v with
  | atom | list =>
    cases refused
    exact .inl rfl
  | map label entries =>
    cases named : (entry entries "name").isVoid with
    | true =>
      rw [ofData_of_unnamed named] at refused
      cases refused
      exact .inl rfl
    | false =>
      cases typed : isFieldType (fieldType entries) with
      | true =>
        obtain ⟨t, -, -, field⟩ := ofData_of_describe owner ⟨named, typed⟩
        rw [field] at refused
        obtain name | ⟨_, -, rest⟩ := bind_eq_error.mp refused
        · cases (shownText_eq_error.mp name).2
        · split at rest <;> cases rest
      | false =>
        rw [ofData_of_untyped named typed] at refused
        obtain type | ⟨type, -, rest⟩ := bind_eq_error.mp refused
        · cases (shownText_eq_error.mp type).2
        · cases rest
          exact .inr ⟨type, rfl⟩

theorem describe_of_ofData {f : Field} (read : Field.ofData owner v = .ok f) :
    ∃ label entries, v = .map label entries ∧ DescribeField entries := by
  cases v with
  | atom => cases read
  | list => cases read
  | map label entries =>
    refine ⟨label, entries, rfl, ?_⟩
    cases named : (entry entries "name").isVoid with
    | true =>
      rw [ofData_of_unnamed named] at read
      cases read
    | false =>
      cases typed : isFieldType (fieldType entries) with
      | true => exact ⟨named, typed⟩
      | false =>
        rw [ofData_of_untyped named typed] at read
        obtain ⟨type, -, refused⟩ := bind_eq_ok.mp read
        cases refused

end Fields

section Nodes

variable {entries : Entries Unit} {label : Unit} {defaultId id : String}

theorem nodeType_cases (entries : Entries Unit) :
    (∃ t ∈ nodeTypes, nodeType entries = .text t) ∨ ∀ t ∈ nodeTypes, nodeType entries ≠ .text t := by
  by_cases known : ∃ t ∈ nodeTypes, nodeType entries = .text t
  · exact .inl known
  · exact .inr fun t member same => known ⟨t, member, same⟩

theorem overlong_id_iff (defaultId : String) :
    ((entry entries "id").orElse (.text defaultId)).Overlong ↔ (entry entries "id").Overlong := by
  unfold Value.orElse
  split
  · rename_i void
    have short : ¬(Value.text defaultId : Data).Overlong := by
      rintro ⟨⟨⟩⟩
    refine iff_of_false short fun long => ?_
    rw [long.given] at void
    cases void
  · rfl

/-- A node has an id, unless it is given one that cannot be shown. -/
theorem exists_ownId_iff :
    (∃ id, OwnId entries defaultId id) ↔ ¬(entry entries "id").Overlong := by
  rw [← overlong_id_iff defaultId, ← Value.shown_eq_error_iff]
  unfold OwnId
  cases ((entry entries "id").orElse (.text defaultId)).shown with
  | error f => simp
  | ok id => simp

theorem OwnId.unique {id' : String} (own : OwnId entries defaultId id)
    (own' : OwnId entries defaultId id') : id = id' :=
  Except.ok.inj (own.symm.trans own')

theorem readNode_of_overlong (long : (entry entries "id").Overlong) :
    readNode (.map label entries) defaultId = .error (.fault .tooManyDigits) := by
  rw [readNode, shownText_eq_error.mpr ⟨(overlong_id_iff _).mpr long, rfl⟩]
  rfl

theorem readNode_interaction (own : OwnId entries defaultId id)
    (type : nodeType entries = .text "user_interaction") :
    readNode (.map label entries) defaultId = do
      let fields ← fieldsOf id (entry entries "fields")
      return .interaction id (entry entries "prompt") fields !(entry entries "ended").isVoid := by
  rw [readNode, shownText_eq_ok.mpr own, type]
  rfl

theorem readNode_call (own : OwnId entries defaultId id)
    (type : nodeType entries = .text "api_call") :
    readNode (.map label entries) defaultId =
      .ok (.call id (textEntry entries "api_name")
        ((entry entries "response_var").orElse (textEntry entries "response"))
        !(entry entries "ended").isVoid) := by
  rw [readNode, shownText_eq_ok.mpr own, type]
  rfl

theorem readNode_decision (own : OwnId entries defaultId id)
    (type : nodeType entries = .text "decision") :
    readNode (.map label entries) defaultId = do
      let yes ← readBlock entries "if_block" id
      let no ← readBlock entries "else_block" id
      return .decision id (entry entries "expression") yes no := by
  rw [readNode, shownText_eq_ok.mpr own, type]
  rfl

theorem readNode_whileLoop (own : OwnId entries defaultId id)
    (type : nodeType entries = .text "while_loop") :
    readNode (.map label entries) defaultId = do
      let actions ← readBlock entries "actions" id
      return .whileLoop id (entry entries "expression") actions := by
  rw [readNode, shownText_eq_ok.mpr own, type]
  rfl

theorem readNode_doWhile (own : OwnId entries defaultId id)
    (type : nodeType entries = .text "do_while") :
    readNode (.map label entries) defaultId = do
      let actions ← readBlock entries "actions" id
      return .doWhile id (entry entries "expression") actions := by
  rw [readNode, shownText_eq_ok.mpr own, type]
  rfl

theorem readNode_unknown (own : OwnId entries defaultId id)
    (other : ∀ t ∈ nodeTypes, nodeType entries ≠ .text t) :
    readNode (.map label entries) defaultId = do
      let type ← shownText (nodeType entries)
      return .unknown id type ((entries.erase (.text "id")).erase (.text "type")) := by
  rw [readNode, shownText_eq_ok.mpr own]
  dsimp only [bind, Except.bind]
  split
  · rename_i type
    exact absurd type (other _ (by decide))
  · rename_i type
    exact absurd type (other _ (by decide))
  · rename_i type
    exact absurd type (other _ (by decide))
  · rename_i type
    exact absurd type (other _ (by decide))
  · rename_i type
    exact absurd type (other _ (by decide))
  · rfl

theorem blockKeys_of_other {type : Data} (other : ∀ t ∈ nodeTypes, type ≠ .text t) :
    blockKeys type = [] := by
  unfold blockKeys
  split
  · exact absurd rfl (other _ (by decide))
  · exact absurd rfl (other _ (by decide))
  · exact absurd rfl (other _ (by decide))
  · rfl

/-- A node that is read has the blocks that its type names, and keeps its id. -/
theorem readNode_eq_ok {n : Node} (read : readNode (.map label entries) defaultId = .ok n) :
    OwnId entries defaultId n.id ∧ (blockKeys (nodeType entries)).mapM
      (fun key => readBlock entries key n.id) = .ok n.blocks := by
  obtain ⟨id, own⟩ : ∃ id, OwnId entries defaultId id := by
    refine exists_ownId_iff.mpr fun long => ?_
    rw [readNode_of_overlong long] at read
    cases read
  obtain ⟨t, member, type⟩ | other := nodeType_cases entries
  · simp only [nodeTypes, List.mem_cons, List.not_mem_nil, or_false] at member
    rcases member with rfl | rfl | rfl | rfl | rfl
    · rw [readNode_interaction own type] at read
      obtain ⟨fields, -, same⟩ := bind_eq_ok.mp read
      cases same
      exact ⟨own, by rw [type]; rfl⟩
    · rw [readNode_call own type] at read
      cases read
      exact ⟨own, by rw [type]; rfl⟩
    · rw [readNode_decision own type] at read
      obtain ⟨yes, readYes, rest⟩ := bind_eq_ok.mp read
      obtain ⟨no, readNo, same⟩ := bind_eq_ok.mp rest
      cases same
      exact ⟨own, by rw [type]; exact mapM_eq_ok.mpr (.cons readYes (.cons readNo .nil))⟩
    · rw [readNode_whileLoop own type] at read
      obtain ⟨actions, readActions, same⟩ := bind_eq_ok.mp read
      cases same
      exact ⟨own, by rw [type]; exact mapM_eq_ok.mpr (.cons readActions .nil)⟩
    · rw [readNode_doWhile own type] at read
      obtain ⟨actions, readActions, same⟩ := bind_eq_ok.mp read
      cases same
      exact ⟨own, by rw [type]; exact mapM_eq_ok.mpr (.cons readActions .nil)⟩
  · rw [readNode_unknown own other] at read
    obtain ⟨type, -, same⟩ := bind_eq_ok.mp read
    cases same
    exact ⟨own, by rw [blockKeys_of_other other]; rfl⟩

/-- A node fails with its id, with its fields, with the first of its blocks that fails, or with a type
that there is not. -/
theorem readNode_eq_error {d : DocumentError} : readNode (.map label entries) defaultId = .error d ↔
    ((entry entries "id").Overlong ∧ d = .fault .tooManyDigits) ∨
    ∃ id, OwnId entries defaultId id ∧
      ((nodeType entries = .text "user_interaction" ∧
          fieldsOf id (entry entries "fields") = .error d) ∨
        (blockKeys (nodeType entries)).mapM (fun key => readBlock entries key id) = .error d ∨
        (∀ t ∈ nodeTypes, nodeType entries ≠ .text t) ∧
          (nodeType entries).Overlong ∧ d = .fault .tooManyDigits) := by
  by_cases long : (entry entries "id").Overlong
  · have none (id : String) : ¬OwnId entries defaultId id := fun own =>
      exists_ownId_iff.mp ⟨id, own⟩ long
    rw [readNode_of_overlong long]
    simp [long, none, eq_comm]
  obtain ⟨id, own⟩ := exists_ownId_iff.mpr long
  have only (id' : String) : OwnId entries defaultId id' ↔ id' = id :=
    ⟨fun own' => own'.unique own, fun same => same ▸ own⟩
  simp only [long, false_and, only, exists_eq_left, false_or]
  obtain ⟨t, member, type⟩ | other := nodeType_cases entries
  · have known : ¬∀ t ∈ nodeTypes, nodeType entries ≠ .text t := fun other => other t member type
    simp only [known, false_and, or_false]
    simp only [nodeTypes, List.mem_cons, List.not_mem_nil, or_false] at member
    rcases member with rfl | rfl | rfl | rfl | rfl
    · rw [readNode_interaction own type, type]
      simp [blockKeys, map_eq_error, pure_ne_error]
    · rw [readNode_call own type, type]
      simp [blockKeys, pure_ne_error]
    · rw [readNode_decision own type, type]
      simp [blockKeys, bind_eq_error, map_eq_error]
    · rw [readNode_whileLoop own type, type]
      simp [blockKeys, map_eq_error]
    · rw [readNode_doWhile own type, type]
      simp [blockKeys, map_eq_error]
  · rw [readNode_unknown own other, blockKeys_of_other other, and_iff_right other]
    simp [other "user_interaction" (by decide), pure_ne_error, shownText_eq_error, map_eq_error]

theorem readBlock_eq (entries : Entries Unit) (key owner : String) :
    readBlock entries key owner = blockOf key owner (entry entries key) := by
  induction entries with
  | nil => rfl
  | cons e entries ih =>
    obtain ⟨k, v⟩ := e
    unfold readBlock
    rw [entry, Entries.field?_cons]
    by_cases here : k = .text key
    · rw [if_pos (beq_iff_eq.mpr here), if_pos here]
      cases v <;> rfl
    · rw [if_neg (mt beq_iff_eq.mp here), if_neg here]
      exact ih

theorem readBlock_eq_ok {key owner : String} {nodes : List Node}
    (read : readBlock entries key owner = .ok nodes) :
    (∃ label items, entry entries key = .list label items ∧
      readNodes items (.block owner key) 0 = .ok nodes) ∨
    (∀ label items, entry entries key ≠ .list label items) ∧ nodes = [] := by
  rw [readBlock_eq] at read
  unfold blockOf at read
  split at read
  · rename_i label items block
    exact .inl ⟨label, items, block, read⟩
  · rename_i other
    split at read
    · cases read
      exact .inr ⟨other, rfl⟩
    · cases read

theorem readBlock_eq_error {key owner : String} {d : DocumentError} :
    readBlock entries key owner = .error d ↔
    (∃ label items, entry entries key = .list label items ∧
      readNodes items (.block owner key) 0 = .error d) ∨
    (∀ label items, entry entries key ≠ .list label items) ∧
      (entry entries key).isVoid = false ∧ d = .flaw (.blockNotList key owner) := by
  rw [readBlock_eq]
  unfold blockOf
  cases entry entries key with
  | list label items => simp
  | atom s => cases void : (Value.atom s : Data).isVoid <;> simp [void, eq_comm]
  | map label es => cases void : (Value.map label es : Data).isVoid <;> simp [void, eq_comm]

end Nodes

/-! ## Induction along a document -/

/-- What nodes have if the lists under their keys have it, and lists if their nodes do. -/
structure Inherited (node : Data → Prop) (nodes : List Data → Prop) : Prop where
  atom : ∀ s, node (.atom s)
  list : ∀ label items, node (.list label items)
  map : ∀ label entries, (∀ key label' items, entry entries key = .list label' items →
    nodes items) → node (.map label entries)
  nil : nodes []
  cons : ∀ v rest, node v → nodes rest → nodes (v :: rest)

namespace Inherited

variable {node : Data → Prop} {nodes : List Data → Prop}

mutual

theorem holds (inherited : Inherited node nodes) : ∀ v : Data, node v
  | .atom s => inherited.atom s
  | .list label items => inherited.list label items
  | .map label entries => inherited.map label entries (inherited.holds_under entries)

theorem holds_under (inherited : Inherited node nodes) : ∀ (entries : List (Scalar × Data))
    (key : String) (label : Unit) (items : List Data), entry entries key = .list label items →
      nodes items
  | [], _, _, _, found => nomatch found
  | (k, v) :: rest, key, label, items, found => by
    rw [entry, Entries.field?_cons] at found
    split at found
    · cases v with
      | atom | map => cases found
      | list label' items' =>
        cases found
        exact inherited.holds_all items
    · exact inherited.holds_under rest key label items found

theorem holds_all (inherited : Inherited node nodes) : ∀ items : List Data, nodes items
  | [] => inherited.nil
  | v :: rest => inherited.cons v rest (inherited.holds v) (inherited.holds_all rest)

end

end Inherited

end Walkthrough
