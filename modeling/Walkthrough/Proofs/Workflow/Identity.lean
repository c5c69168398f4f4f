import Mathlib.Data.List.Nodup
import Walkthrough.Proofs.Workflow.Address
import Walkthrough.Proofs.Workflow.Reading

/-! Ids tell the nodes of a workflow apart. Each node has an id that a document gives or that comes
from a place, and then it goes on behind a given id or behind that of a place at the top. So given
ids that differ and cannot be taken for places are never met again, however they are mixed with ids
from places. -/
namespace Walkthrough

/-! ## Given ids -/

def givenId (entries : Entries Unit) : List String :=
  if (entry entries "id").isVoid then [] else (entry entries "id").shown.toOption.toList

mutual

/-- The ids that a node and the nodes below it do not take from their places. -/
def givenIds : Data → List String
  | .map _ entries => givenId entries ++
      (blockKeys (nodeType entries)).flatMap fun key => blockGivenIds entries key
  | _ => []

def blockGivenIds (entries : List (Scalar × Data)) (key : String) : List String :=
  match entries with
  | [] => []
  | (k, v) :: rest =>
    if k == .text key then
      match v with
      | .list _ items => allGivenIds items
      | _ => []
    else blockGivenIds rest key

def allGivenIds : List Data → List String
  | [] => []
  | v :: rest => givenIds v ++ allGivenIds rest

end

def documentIds (document : Data) : List String :=
  match unwrapped document with
  | .list _ items => allGivenIds items
  | _ => []

/-- Given ids that are apart from each other and from the ids of places. -/
structure Free (places : Set String) (given : List String) : Prop where
  distinct : given.Nodup
  undotted : ∀ id ∈ given, dots id = 0
  apart : ∀ id ∈ given, ∀ place ∈ places, Apart id place

/-- Nodes that are told apart by their ids, each of which is under that of a place or a given one. -/
structure Spread (places : Set String) (given : List String) (nodes : List Node) : Prop where
  distinct : (nodes.map Node.id).Nodup
  covered : ∀ n ∈ nodes, ∃ a, (a ∈ places ∨ a ∈ given) ∧ Under a n.id

section Spread

variable {places left right : Set String} {given given' : List String} {nodes nodes' : List Node}

theorem Free.mono (free : Free places given) (fewer : left ⊆ places) : Free left given :=
  ⟨free.distinct, free.undotted, fun id inside a here => free.apart id inside a (fewer here)⟩

theorem Free.of_append_left (free : Free places (given ++ given')) : Free places given :=
  ⟨(List.nodup_append.mp free.distinct).1,
    fun id inside => free.undotted id (List.mem_append_left _ inside),
    fun id inside => free.apart id (List.mem_append_left _ inside)⟩

theorem Free.of_append_right (free : Free places (given ++ given')) : Free places given' :=
  ⟨(List.nodup_append.mp free.distinct).2.1,
    fun id inside => free.undotted id (List.mem_append_right _ inside),
    fun id inside => free.apart id (List.mem_append_right _ inside)⟩

theorem Free.apart_given (free : Free places (given ++ given')) {a b : String} (first : a ∈ given)
    (second : b ∈ given') : Apart a b := by
  refine .of_dots ?_ ((List.nodup_append.mp free.distinct).2.2 a first b second)
  rw [free.of_append_left.undotted a first, free.of_append_right.undotted b second]

theorem Spread.nil (places : Set String) (given : List String) : Spread places given [] :=
  ⟨List.nodup_nil, nofun⟩

theorem Spread.append (free : Free places (given ++ given')) (first : Spread left given nodes)
    (second : Spread right given' nodes') (fewer : left ⊆ places) (fewer' : right ⊆ places)
    (apart : ∀ a ∈ left, ∀ b ∈ right, Apart a b) :
    Spread places (given ++ given') (nodes ++ nodes') := by
  constructor
  · rw [List.map_append, List.nodup_append]
    refine ⟨first.distinct, second.distinct, fun id inside other inside' same => ?_⟩
    obtain ⟨n, member, rfl⟩ := List.mem_map.mp inside
    obtain ⟨m, member', rfl⟩ := List.mem_map.mp inside'
    obtain ⟨a, anchor, under⟩ := first.covered n member
    obtain ⟨b, anchor', under'⟩ := second.covered m member'
    -- an id of both parts would be under two ids that are apart
    have anchors : Apart a b := by
      rcases anchor with here | here <;> rcases anchor' with there | there
      · exact apart a here b there
      · exact (free.of_append_right.apart b there a (fewer here)).symm
      · exact free.of_append_left.apart a here b (fewer' there)
      · exact free.apart_given here there
    exact anchors.not_under under (same ▸ under')
  · intro n inside
    obtain here | here := List.mem_append.mp inside
    · obtain ⟨a, anchor, under⟩ := first.covered n here
      exact ⟨a, anchor.imp (fun h => fewer h) (List.mem_append_left _), under⟩
    · obtain ⟨a, anchor, under⟩ := second.covered n here
      exact ⟨a, anchor.imp (fun h => fewer' h) (List.mem_append_right _), under⟩

end Spread

/-! ## Reading -/

section Reading

variable {entries : Entries Unit} {defaultId owner : String} {keys : List String}
  {blocks : List (List Node)} {n : Node}

theorem givenId_cases {id : String} (own : OwnId entries defaultId id) :
    (givenId entries = [] ∧ id = defaultId) ∨ givenId entries = [id] := by
  unfold OwnId Value.orElse at own
  unfold givenId
  split at own
  · rename_i void
    rw [if_pos void]
    exact .inl ⟨rfl, (Except.ok.inj own).symm⟩
  · rename_i given
    rw [if_neg given, own]
    exact .inr rfl

theorem blockKeys_undotted (type : Data) : ∀ key ∈ blockKeys type, '.' ∉ key.toList := by
  unfold blockKeys
  split <;> decide

theorem blockKeys_nodup (type : Data) : (blockKeys type).Nodup := by
  unfold blockKeys
  split <;> decide

theorem Node.walk_eq (n : Node) : n.walk = n :: n.blocks.flatMap walkAll := by
  cases n <;> simp [walk, blocks]

theorem spread_of_blocks (undotted : ∀ key ∈ keys, '.' ∉ key.toList) (distinct : keys.Nodup)
    (free : Free (Place.blockIds owner keys) (keys.flatMap (blockGivenIds entries)))
    (read : keys.mapM (fun key => readBlock entries key owner) = .ok blocks)
    (each : ∀ key ∈ keys, ∀ nodes, readBlock entries key owner = .ok nodes →
      Free ((Place.block owner key).childIds 0) (blockGivenIds entries key) →
      Spread ((Place.block owner key).childIds 0) (blockGivenIds entries key) (Node.walkAll nodes)) :
    Spread (Place.blockIds owner keys) (keys.flatMap (blockGivenIds entries))
      (blocks.flatMap Node.walkAll) := by
  induction keys generalizing blocks with
  | nil =>
    cases read
    exact .nil _ _
  | cons key keys ih =>
    obtain _ | ⟨first, rest⟩ := mapM_eq_ok.mp read
    rename_i nodes blocks
    obtain ⟨other, distinct⟩ := List.nodup_cons.mp distinct
    have fewer : (Place.block owner key).childIds 0 ⊆ Place.blockIds owner (key :: keys) :=
      fun id inside => ⟨key, List.mem_cons_self, inside⟩
    have fewer' : Place.blockIds owner keys ⊆ Place.blockIds owner (key :: keys) :=
      fun id ⟨key', member, inside⟩ => ⟨key', List.mem_cons_of_mem _ member, inside⟩
    rw [List.flatMap_cons] at free ⊢
    have head := each key List.mem_cons_self nodes first (free.of_append_left.mono fewer)
    have tail := ih (fun k member => undotted k (List.mem_cons_of_mem _ member)) distinct
      (free.of_append_right.mono fewer') (mapM_eq_ok.mpr rest)
      fun k member => each k (List.mem_cons_of_mem _ member)
    exact head.append free tail fewer fewer' (Place.apart_blockIds undotted other)

theorem spread_of_node (own : OwnId entries defaultId n.id)
    (free : Free {defaultId} (givenId entries ++ keys.flatMap (blockGivenIds entries)))
    (below : Free (Place.blockIds n.id keys) (keys.flatMap (blockGivenIds entries)) →
      Spread (Place.blockIds n.id keys) (keys.flatMap (blockGivenIds entries))
        (n.blocks.flatMap Node.walkAll)) :
    Spread {defaultId} (givenId entries ++ keys.flatMap (blockGivenIds entries)) n.walk := by
  have anchor : n.id = defaultId ∨ n.id ∈ givenId entries := by
    obtain ⟨-, place⟩ | given := givenId_cases own
    · exact .inl place
    · exact .inr (by rw [given]; exact List.mem_cons_self)
  -- whether it is given or that of a place, the id of the node is apart from those given below it
  have others : ∀ id ∈ keys.flatMap (blockGivenIds entries), Apart id n.id := by
    intro id inside
    obtain place | given := anchor
    · exact free.of_append_right.apart id inside _ place
    · exact (free.apart_given given inside).symm
  have spread := below ⟨free.of_append_right.distinct, free.of_append_right.undotted,
    fun id inside a here => (others id inside).of_under (Place.under_of_mem_blockIds here)⟩
  rw [Node.walk_eq]
  constructor
  · rw [List.map_cons, List.nodup_cons]
    refine ⟨fun again => ?_, spread.distinct⟩
    obtain ⟨m, member, same⟩ := List.mem_map.mp again
    obtain ⟨a, here | here, under⟩ := spread.covered m member
    · exact Place.not_under_of_mem_blockIds here (same ▸ under)
    · exact (others a here).1 (same ▸ under)
  · intro m inside
    obtain rfl | later := List.mem_cons.mp inside
    · exact ⟨m.id, anchor.imp id (List.mem_append_left _), .refl _⟩
    · obtain ⟨a, here | here, under⟩ := spread.covered m later
      · exact ⟨n.id, anchor.imp id (List.mem_append_left _),
          (Place.under_of_mem_blockIds here).trans under⟩
      · exact ⟨a, .inr (List.mem_append_right _ here), under⟩

end Reading

theorem blockGivenIds_eq (entries : Entries Unit) (key : String) : blockGivenIds entries key =
    match entry entries key with
    | .list _ items => allGivenIds items
    | _ => [] := by
  induction entries with
  | nil => rfl
  | cons e entries ih =>
    obtain ⟨k, v⟩ := e
    unfold blockGivenIds
    rw [entry, Entries.field?_cons]
    by_cases here : k = .text key
    · rw [if_pos (beq_iff_eq.mpr here), if_pos here]
      cases v <;> rfl
    · rw [if_neg (mt beq_iff_eq.mp here), if_neg here]
      exact ih

theorem spread_inherited : Inherited
    (fun v => ∀ defaultId n, readNode v defaultId = .ok n → Free {defaultId} (givenIds v) →
      Spread {defaultId} (givenIds v) n.walk)
    (fun items => ∀ place i nodes, readNodes items place i = .ok nodes →
      Free (place.childIds i) (allGivenIds items) →
        Spread (place.childIds i) (allGivenIds items) (Node.walkAll nodes)) where
  atom s := by
    intro defaultId n read
    cases read
  list label items := by
    intro defaultId n read
    cases read
  map label entries ih := by
    intro defaultId n read free
    obtain ⟨own, blocks⟩ := readNode_eq_ok read
    rw [givenIds] at free ⊢
    apply spread_of_node own free
    intro below
    apply spread_of_blocks (blockKeys_undotted _) (blockKeys_nodup _) below blocks
    intro key member nodes readBlock here
    obtain ⟨label', items, block, readNodes⟩ | ⟨-, rfl⟩ := readBlock_eq_ok readBlock
    · rw [blockGivenIds_eq, block] at here ⊢
      exact ih key label' items block _ 0 nodes readNodes here
    · exact .nil _ _
  nil := by
    intro place i nodes read free
    cases read
    exact .nil _ _
  cons v rest first later := by
    intro place i nodes read free
    unfold readNodes at read
    obtain ⟨n, readFirst, more⟩ := bind_eq_ok.mp read
    obtain ⟨ns, readRest, same⟩ := bind_eq_ok.mp more
    cases same
    rw [allGivenIds] at free ⊢
    have fewer : {place.childId i} ⊆ place.childIds i := by
      rintro _ rfl
      exact ⟨i, le_rfl, rfl⟩
    have fewer' : place.childIds (i + 1) ⊆ place.childIds i :=
      fun id ⟨j, le, same⟩ => ⟨j, Nat.le_of_succ_le le, same⟩
    have head := first _ n readFirst (free.of_append_left.mono fewer)
    have tail := later place _ ns readRest (free.of_append_right.mono fewer')
    exact head.append free tail fewer fewer' (Place.apart_childIds (Nat.lt_succ_self i))

/-! ## Duplicates -/

theorem Field.ofData_ne_duplicate (owner : String) (v : Data) (id : String) :
    Field.ofData owner v ≠ .error (.flaw (.duplicateId id)) := by
  intro refused
  obtain impossible | ⟨type, impossible⟩ := flaw_of_ofData refused
  · cases impossible
  · cases impossible

theorem fieldsOf_ne_duplicate (owner : String) (v : Data) (id : String) :
    fieldsOf owner v ≠ .error (.flaw (.duplicateId id)) := by
  intro refused
  unfold fieldsOf at refused
  split at refused
  · cases refused
  · split at refused
    · obtain ⟨-, field, -, -, -, failed⟩ := mapM_eq_error.mp refused
      exact Field.ofData_ne_duplicate owner field id failed
    · cases refused

theorem unduplicated_inherited : Inherited
    (fun v => ∀ defaultId id, readNode v defaultId ≠ .error (.flaw (.duplicateId id)))
    (fun items => ∀ place i id, readNodes items place i ≠ .error (.flaw (.duplicateId id))) where
  atom s := by
    intro defaultId id refused
    cases refused
  list label items := by
    intro defaultId id refused
    cases refused
  map label entries ih := by
    intro defaultId id refused
    obtain ⟨-, ⟨⟩⟩ | ⟨own, -, ⟨-, fields⟩ | blocks | ⟨-, -, ⟨⟩⟩⟩ := readNode_eq_error.mp refused
    · exact fieldsOf_ne_duplicate _ _ id fields
    · obtain ⟨-, key, -, -, -, block⟩ := mapM_eq_error.mp blocks
      obtain ⟨label', items, here, failed⟩ | ⟨-, -, impossible⟩ := readBlock_eq_error.mp block
      · exact ih key label' items here _ 0 id failed
      · cases impossible
  nil := by
    intro place i id refused
    cases refused
  cons v rest first later := by
    intro place i id refused
    unfold readNodes at refused
    obtain here | ⟨n, -, more⟩ := bind_eq_error.mp refused
    · exact first _ id here
    · exact later place _ id (map_eq_error.mp more)

theorem firstDuplicate?_eq_none {seen ids : List String} : firstDuplicate? seen ids = none ↔
    ids.Nodup ∧ ∀ id ∈ ids, id ∉ seen := by
  induction ids generalizing seen with
  | nil => simp [firstDuplicate?]
  | cons id ids ih =>
    rw [firstDuplicate?, List.nodup_cons, List.forall_mem_cons]
    split
    · rename_i again
      have before : id ∈ seen := by simpa using again
      simp [before]
    · rename_i new
      have absent : id ∉ seen := by simpa using new
      rw [ih]
      simp only [List.mem_cons, not_or]
      constructor
      · rintro ⟨distinct, other⟩
        exact ⟨⟨fun inside => (other id inside).1 rfl, distinct⟩, absent,
          fun id' inside => (other id' inside).2⟩
      · rintro ⟨⟨once, distinct⟩, -, other⟩
        exact ⟨distinct, fun id' inside => ⟨fun same => once (same ▸ inside), other id' inside⟩⟩

theorem checkIds_eq_ok {nodes found : List Node} : checkIds nodes = .ok found ↔
    ((Node.walkAll nodes).map Node.id).Nodup ∧ found = nodes := by
  unfold checkIds
  split
  · rename_i id duplicate
    constructor
    · nofun
    · rintro ⟨distinct, -⟩
      have none := firstDuplicate?_eq_none.mpr ⟨distinct, fun _ _ => List.not_mem_nil⟩
      cases duplicate.symm.trans none
  · rename_i none
    have distinct := (firstDuplicate?_eq_none.mp none).1
    simp [distinct, eq_comm]

/-- The ids of a workflow tell its nodes apart, at any depth, and no other id finds one. -/
structure Identified (nodes : List Node) : Prop where
  distinct : ((Node.walkAll nodes).map Node.id).Nodup
  found : ∀ n ∈ Node.walkAll nodes, Node.find? nodes n.id = some n
  absent : ∀ id, id ∉ (Node.walkAll nodes).map Node.id → Node.find? nodes id = none

theorem identified_of_nodup {nodes : List Node}
    (distinct : ((Node.walkAll nodes).map Node.id).Nodup) : Identified nodes := by
  refine ⟨distinct, fun n inside => ?_, fun id outside => ?_⟩
  · unfold Node.find?
    cases found : (Node.walkAll nodes).find? fun m => m.id == n.id with
    | none => exact absurd (List.find?_eq_none.mp found n inside) (by simp)
    | some m =>
      have same : m.id = n.id := by simpa using List.find?_some found
      rw [List.inj_on_of_nodup_map distinct (List.mem_of_find?_eq_some found) inside same]
  · refine List.find?_eq_none.mpr fun n inside same => outside ?_
    exact List.mem_map.mpr ⟨n, inside, beq_iff_eq.mp same⟩

/-- Ids that differ from each other and cannot be taken for those of places. -/
structure Unplaced (ids : List String) : Prop where
  distinct : ids.Nodup
  undotted : ∀ id ∈ ids, '.' ∉ id.toList
  unnumbered : ∀ id ∈ ids, ∀ digits : List Char, digits ≠ [] → (∀ c ∈ digits, c.isDigit = true) →
    id ≠ "step_" ++ String.ofList digits

theorem Unplaced.free {ids : List String} (unplaced : Unplaced ids) :
    Free (Place.top.childIds 0) ids := by
  have undotted : ∀ id ∈ ids, dots id = 0 := fun id inside =>
    dots_eq_zero.mpr (unplaced.undotted id inside)
  refine ⟨unplaced.distinct, undotted, ?_⟩
  rintro id inside _ ⟨i, -, rfl⟩
  refine .of_dots ((undotted id inside).trans (Place.dots_childId_top i).symm) fun same => ?_
  refine unplaced.unnumbered id inside i.repr.toList ?_ ?_ (same.trans ?_)
  · rw [Nat.toList_repr]
    exact Nat.toDigits_ne_nil
  · rw [Nat.toList_repr]
    exact fun c digit => Nat.isDigit_of_mem_toDigits (by decide) (by decide) digit
  · rw [String.ofList_toList]
    rfl

/-- The ids of a workflow that is accepted tell its nodes apart. No document is refused for ids
that it leaves to places, if those it gives differ and look like none of a place. -/
theorem readWorkflow_ids (document : Data) :
    (∀ nodes, readWorkflow document = .ok nodes → Identified nodes) ∧
    (Unplaced (documentIds document) →
      ∀ id, readWorkflow document ≠ .error (.flaw (.duplicateId id))) := by
  unfold readWorkflow documentIds
  cases unwrapped document with
  | atom | map => exact ⟨nofun, fun _ _ => nofun⟩
  | list label items =>
    constructor
    · intro nodes read
      obtain ⟨found, -, checked⟩ := bind_eq_ok.mp read
      obtain ⟨distinct, rfl⟩ := checkIds_eq_ok.mp checked
      exact identified_of_nodup distinct
    · intro unplaced id refused
      obtain impossible | ⟨nodes, read, duplicate⟩ := bind_eq_error.mp refused
      · exact unduplicated_inherited.holds_all items .top 0 id impossible
      · have spread := spread_inherited.holds_all items .top 0 nodes read unplaced.free
        have checked := checkIds_eq_ok.mpr ⟨spread.distinct, rfl⟩
        cases duplicate.symm.trans checked

/-- A loop with an id that is no text, in a branch of a decision that has none, beside nodes that
have none either. -/
def partlyNamed : Data :=
  .ofList [
    .ofEntries [(.text "type", .text "decision"), (.text "expression", .bool true),
      (.text "if_block", .ofList [
        .ofEntries [(.text "type", .text "api_call")],
        .ofEntries [(.text "id", .bool true), (.text "type", .text "while_loop"),
          (.text "actions", .ofList [.ofEntries [], .ofEntries []])]]),
      (.text "else_block", .ofList [.ofEntries []])],
    .ofEntries [(.text "id", .text "step_on")]]

theorem readWorkflow_ids_partlyNamed :
    (∃ nodes, readWorkflow partlyNamed = .ok nodes ∧ Identified nodes ∧
      (Node.walkAll nodes).map Node.id = ["step_0", "step_0.if_block.0", "True", "True.actions.0",
        "True.actions.1", "step_0.else_block.0", "step_on"]) ∧
    Unplaced (documentIds partlyNamed) ∧
    ∀ id, readWorkflow partlyNamed ≠ .error (.flaw (.duplicateId id)) := by
  have given : documentIds partlyNamed = ["True", "step_on"] := rfl
  have unplaced : Unplaced (documentIds partlyNamed) := by
    rw [given]
    refine ⟨by decide, by decide, fun id inside digits _ figures same => ?_⟩
    have text := congrArg String.toList same
    rw [String.toList_append, String.toList_ofList] at text
    simp only [List.mem_cons, List.not_mem_nil, or_false] at inside
    rcases inside with rfl | rfl
    · cases text
    · have tail : digits = ['o', 'n'] := by simpa using text.symm
      have digit := figures 'o' (by rw [tail]; decide)
      revert digit
      decide
  obtain ⟨identified, accepted⟩ := readWorkflow_ids partlyNamed
  exact ⟨⟨_, rfl, identified _ rfl, rfl⟩, unplaced, accepted unplaced⟩

end Walkthrough
