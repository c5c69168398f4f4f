import Walkthrough.Proofs.Attempt
import Walkthrough.Proofs.Value.Listing
import Walkthrough.Proofs.Workflow.Reading
import Walkthrough.Workflow.Written

/-! Workflows survive being written and read again. The two halves meet at the canonical nodes:
reading yields nothing else, and a canonical node is what reading its written form yields, wherever
it stands. Ids are never left out when nodes are written, so those that came from a place stay. -/
namespace Walkthrough

def attributeNames : List String := ["optional", "options", "label_expression", "min", "max"]

/-- Attributes with a meaning of their own are not among the others. -/
def FieldAttributes.Canonical (a : FieldAttributes) : Prop :=
  ∀ name ∈ attributeNames, a.extra.field? name = none

structure Field.Canonical (f : Field) : Prop where
  named : f.name ≠ ""
  type : f.type ∈ fieldTypes
  attributes : f.attributes.Canonical

/-- A text entry that is void is empty text. -/
def Value.Filled (v : Data) : Prop := v.orElse (.text "") = v

inductive Node.Canonical : Node → Prop where
  | interaction {id : String} {prompt : Data} {fields : List Field} {ended : Bool}
      (named : id ≠ "") (fields_ : ∀ f ∈ fields, f.Canonical) :
      Canonical (.interaction id prompt fields ended)
  | call {id : String} {name response : Data} {ended : Bool} (named : id ≠ "")
      (name_ : name.Filled) (response_ : response.Filled) : Canonical (.call id name response ended)
  | decision {id : String} {e : Data} {yes no : List Node} (named : id ≠ "")
      (yes_ : ∀ n ∈ yes, n.Canonical) (no_ : ∀ n ∈ no, n.Canonical) :
      Canonical (.decision id e yes no)
  | whileLoop {id : String} {e : Data} {actions : List Node} (named : id ≠ "")
      (actions_ : ∀ n ∈ actions, n.Canonical) : Canonical (.whileLoop id e actions)
  | doWhile {id : String} {e : Data} {actions : List Node} (named : id ≠ "")
      (actions_ : ∀ n ∈ actions, n.Canonical) : Canonical (.doWhile id e actions)
  | unknown {id type : String} {definition : Entries Unit} (named : id ≠ "")
      (other : type ∉ nodeTypes) (noId : definition.field? "id" = none)
      (noType : definition.field? "type" = none) : Canonical (.unknown id type definition)

section Attributes

variable {es : Entries Unit} {names : List String} {name : String}

theorem foldl_erase (names : List String) (es : Entries Unit) :
    names.foldl (fun es name => es.erase (.text name)) es =
      es.filter fun e => names.all fun name => !e.1.sameKey (.text name) := by
  induction names generalizing es with
  | nil => exact (List.filter_eq_self.mpr fun _ _ => rfl).symm
  | cons name names ih =>
    rw [List.foldl_cons, ih, Entries.erase, List.filter_filter]
    congr 1
    funext e
    rw [List.all_cons, Bool.and_comm]

theorem field?_foldl_erase (es : Entries Unit) (member : name ∈ names) :
    (names.foldl (fun es name => es.erase (.text name)) es).field? name = none := by
  rw [foldl_erase, Entries.field?_eq_none_iff]
  intro e inside same
  have kept := List.all_eq_true.mp (List.mem_filter.mp inside).2 name member
  rw [(Scalar.sameKey_text_right e.1 name).mpr same] at kept
  cases kept

/-- Erasing names leaves the entries under other keys and none of those under the names. -/
theorem foldl_erase_append {given : Entries Unit} (others : ∀ name ∈ names, es.field? name = none)
    (named : ∀ e ∈ given, ∃ name ∈ names, e.1 = .text name) :
    names.foldl (fun es name => es.erase (.text name)) (es ++ given) = es := by
  rw [foldl_erase, List.filter_append]
  have stay : es.filter (fun e => names.all fun name => !e.1.sameKey (.text name)) = es := by
    refine List.filter_eq_self.mpr fun e inside => List.all_eq_true.mpr fun name member => ?_
    rw [Bool.not_eq_true', ← Bool.not_eq_true, Scalar.sameKey_text_right]
    exact Entries.field?_eq_none_iff.mp (others name member) e inside
  have go : given.filter (fun e => names.all fun name => !e.1.sameKey (.text name)) = [] := by
    refine List.filter_eq_nil_iff.mpr fun e inside all => ?_
    obtain ⟨name, member, same⟩ := named e inside
    have kept := List.all_eq_true.mp all name member
    rw [(Scalar.sameKey_text_right e.1 name).mpr same] at kept
    cases kept
  rw [stay, go, List.append_nil]

/-- Leaving out what is null changes no entry, as long as each key is there once. -/
theorem entry_filter {p : Scalar × Data → Bool} (drops : ∀ e, p e = false → e.2 = .null)
    (own : (es.map Prod.fst).Nodup) : entry (es.filter p) name = entry es name := by
  induction es with
  | nil => rfl
  | cons e es ih =>
    obtain ⟨k, v⟩ := e
    rw [List.map_cons, List.nodup_cons] at own
    have rest := ih own.2
    simp only [entry] at rest ⊢
    cases kept : p (k, v) with
    | true =>
      rw [List.filter_cons_of_pos kept, Entries.field?_cons, Entries.field?_cons]
      split
      · rfl
      · exact rest
    | false =>
      rw [List.filter_cons_of_neg (by simp [kept]), Entries.field?_cons, rest]
      by_cases here : k = .text name
      · have absent : Entries.field? es name = none := by
          rw [Entries.field?_eq_none_iff]
          intro e inside key
          exact own.1 (List.mem_map.mpr ⟨e, inside, key.trans here.symm⟩)
        rw [absent, if_pos here]
        exact (drops _ kept).symm
      · rw [if_neg here]

theorem entry_append (absent : es.field? name = none) (more : Entries Unit) :
    entry (es ++ more) name = entry more name := by
  simp only [entry, Entries.field?_append, absent, Option.none_or]

end Attributes

namespace FieldAttributes

def named (a : FieldAttributes) : Entries Unit :=
  [(.text "optional", if a.optional then .bool true else .null), (.text "options", a.options),
    (.text "label_expression", a.label), (.text "min", a.min), (.text "max", a.max)]

def isGiven (e : Scalar × Data) : Bool :=
  match e.2 with
  | .null => false
  | _ => true

theorem eq_null_of_not_given (e : Scalar × Data) (out : isGiven e = false) : e.2 = .null := by
  unfold isGiven at out
  split at out
  · assumption
  · cases out

theorem named_key {a : FieldAttributes} {e : Scalar × Data} (inside : e ∈ a.named) :
    ∃ name ∈ attributeNames, e.1 = .text name := by
  have keys : ∀ e ∈ a.named, ∃ name ∈ attributeNames, e.1 = .text name := by
    simp [named, attributeNames]
  exact keys e inside

theorem toEntries_eq {a : FieldAttributes} (canonical : a.Canonical) :
    a.toEntries = a.extra ++ a.named.filter isGiven := by
  have same : a.toEntries = a.extra.merge (a.named.filter isGiven) := by
    unfold toEntries named
    cases a.optional <;> rfl
  have own : (a.named.map Prod.fst).Nodup := by
    simp [named]
  -- none of the keys is among the others, so every entry comes behind them
  rw [same]
  refine Entries.merge_of_absent (own.sublist (List.filter_sublist.map _)) ?_ ?_
  · intro e inside
    obtain ⟨name, -, key⟩ := named_key (List.mem_filter.mp inside).1
    exact ⟨name, key⟩
  · intro e inside t key
    obtain ⟨name, member, key'⟩ := named_key (List.mem_filter.mp inside).1
    cases key.symm.trans key'
    exact canonical t member

theorem ofData_ofEntries (all : Entries Unit) :
    ofData (.ofEntries all) = .ok {
      optional := !(entry all "optional").isVoid
      options := entry all "options"
      label := entry all "label_expression"
      min := entry all "min"
      max := entry all "max"
      extra := attributeNames.foldl (fun es name => es.erase (.text name)) all } := by
  rw [ofData, Value.toEntries_ofEntries]
  rfl

theorem ofData_toEntries {a : FieldAttributes} (canonical : a.Canonical) :
    ofData (.ofEntries a.toEntries) = .ok a := by
  have entries {name : String} (member : name ∈ attributeNames) :
      entry a.toEntries name = entry a.named name := by
    rw [toEntries_eq canonical, entry_append (canonical name member),
      entry_filter eq_null_of_not_given (by simp [named])]
  have extra : attributeNames.foldl (fun es name => es.erase (.text name)) a.toEntries =
      a.extra := by
    rw [toEntries_eq canonical]
    refine foldl_erase_append canonical fun e inside => ?_
    exact named_key (List.mem_filter.mp inside).1
  rw [ofData_ofEntries, extra, entries (by decide), entries (by decide), entries (by decide),
    entries (by decide), entries (by decide)]
  cases a with
  | mk optional options label min max extra => cases optional <;> rfl

theorem canonical_of_ofData {v : Data} {a : FieldAttributes} (read : ofData v = .ok a) :
    a.Canonical := by
  obtain ⟨all, -, same⟩ := bind_eq_ok.mp read
  cases same
  exact fun name member => field?_foldl_erase all member

end FieldAttributes

namespace Field

variable {owner : String} {f : Field}

theorem ofData_toData (canonical : f.Canonical) : ofData owner f.toData = .ok f := by
  have described : DescribeField [(.text "name", .text f.name), (.text "type", .text f.type),
      (.text "attributes", .ofEntries f.attributes.toEntries)] := by
    constructor
    · simpa [entry, Value.isVoid] using canonical.named
    · simpa [fieldType, isFieldType] using canonical.type
  obtain ⟨t, -, type, field⟩ := ofData_of_describe _ described
  cases (show Value.text f.type = Value.text t from type)
  rw [toData, Value.ofEntries, field]
  have shown : shownText (.text f.name) = .ok f.name := rfl
  simp [entry, FieldAttributes.ofData_toEntries canonical.attributes, shown]
  rfl

theorem canonical_of_ofData {v : Data} (read : ofData owner v = .ok f) : f.Canonical := by
  obtain ⟨label, entries, rfl, described⟩ := describe_of_ofData read
  obtain ⟨t, member, -, field⟩ := ofData_of_describe owner described
  rw [field] at read
  obtain ⟨name, shown, rest⟩ := bind_eq_ok.mp read
  split at rest
  · rename_i attributes readAttributes
    cases rest
    exact ⟨Value.shown_ne_empty described.named (shownText_eq_ok.mp shown), member,
      FieldAttributes.canonical_of_ofData readAttributes⟩
  · cases rest

end Field

theorem fieldsOf_toData {owner : String} {fields : List Field}
    (canonical : ∀ f ∈ fields, f.Canonical) :
    fieldsOf owner (.ofList (fields.map Field.toData)) = .ok fields := by
  have each : (fields.map Field.toData).mapM (Field.ofData owner) = .ok fields := by
    rw [mapM_eq_ok, List.forall₂_map_left_iff, List.forall₂_same]
    exact fun f inside => Field.ofData_toData (canonical f inside)
  cases fields with
  | nil => rfl
  | cons f fields => exact each

theorem canonical_of_fieldsOf {owner : String} {v : Data} {fields : List Field}
    (read : fieldsOf owner v = .ok fields) : ∀ f ∈ fields, f.Canonical := by
  unfold fieldsOf at read
  split at read
  · cases read
    exact fun f inside => absurd inside List.not_mem_nil
  · split at read
    · rename_i items parts
      have each := mapM_eq_ok.mp read
      clear read parts
      induction each with
      | nil => exact fun f inside => absurd inside List.not_mem_nil
      | cons here _ ih =>
        intro f inside
        obtain rfl | later := List.mem_cons.mp inside
        · exact Field.canonical_of_ofData here
        · exact ih f later
    · cases read

section Ids

variable {entries : Entries Unit} {id other : String}

theorem Place.childId_ne_empty (place : Place) (i : Nat) : place.childId i ≠ "" := by
  intro empty
  have none := congrArg String.length empty
  cases place <;> simp [childId] at none

theorem OwnId.ne_empty (own : OwnId entries other id) (placed : other ≠ "") : id ≠ "" := by
  unfold OwnId Value.orElse at own
  split at own
  · cases own
    exact placed
  · rename_i given
    exact Value.shown_ne_empty (Bool.eq_false_iff.mpr given) own

theorem ownId_of_text (named : id ≠ "") (here : entry entries "id" = .text id) (other : String) :
    OwnId entries other id := by
  have given : (Value.text (ι := Unit) id).isVoid = false := by
    simpa [Value.isVoid] using named
  rw [OwnId, here, Value.orElse, given]
  rfl

end Ids

section Texts

theorem Value.Filled.orElse {other : Data} (filled : other.Filled) (v : Data) :
    (v.orElse other).Filled := by
  cases given : v.isVoid with
  | true => simpa [Filled, Value.orElse, given] using filled
  | false => simp [Filled, Value.orElse, given]

theorem Value.filled_textEntry (entries : Entries Unit) (name : String) :
    (textEntry entries name).Filled := by
  have empty : Filled (.text "") := rfl
  exact empty.orElse (entry entries name)

end Texts

namespace Node

/-! ## What is written can be read -/

theorem readNodes_toDataAll {nodes : List Node}
    (each : ∀ n ∈ nodes, ∀ other, readNode n.toData other = .ok n) (place : Place) (i : Nat) :
    readNodes (toDataAll nodes) place i = .ok nodes := by
  induction nodes generalizing i with
  | nil => rfl
  | cons n nodes ih =>
    rw [toDataAll, readNodes, each n (List.mem_cons_self ..),
      ih (fun n inside => each n (List.mem_cons_of_mem _ inside))]
    rfl

theorem readBlock_toDataAll {nodes : List Node} {entries : Entries Unit} {key : String}
    (here : entry entries key = .ofList (toDataAll nodes))
    (each : ∀ n ∈ nodes, ∀ other, readNode n.toData other = .ok n) (owner : String) :
    readBlock entries key owner = .ok nodes := by
  rw [readBlock_eq, here]
  exact readNodes_toDataAll each (.block owner key) 0

/-- The definition of an unknown node has neither id nor type, so those written behind it are found. -/
theorem readNode_toData_unknown {id type : String} {definition : Entries Unit} (named : id ≠ "")
    (other : type ∉ nodeTypes) (noId : Entries.field? definition "id" = none)
    (noType : Entries.field? definition "type" = none) (place : String) :
    readNode (toData (.unknown id type definition)) place = .ok (.unknown id type definition) := by
  obtain ⟨written, behind⟩ : ∃ written : Entries Unit,
      written = definition ++ [(.text "id", .text id), (.text "type", .text type)] := ⟨_, rfl⟩
  have own : entry written "id" = .text id := by
    rw [behind, entry_append noId]
    rfl
  have kind : nodeType written = .text type := by
    rw [behind, nodeType, Entries.field?_append, noType]
    rfl
  have unread : ∀ t ∈ nodeTypes, nodeType written ≠ .text t := by
    intro t member same
    cases kind.symm.trans same
    exact other member
  have rest : ["id", "type"].foldl (fun es name => es.erase (.text name)) written = definition := by
    rw [behind]
    refine foldl_erase_append ?_ ?_
    · simp [noId, noType]
    · simp
  rw [toData, Value.ofEntries, ← behind, readNode_unknown (ownId_of_text named own place) unread, kind]
  exact congrArg (fun es => Except.ok (Node.unknown id type es)) rest

theorem readNode_toData {n : Node} (canonical : n.Canonical) :
    ∀ other, readNode n.toData other = .ok n := by
  induction canonical with
  | interaction named fields_ =>
    intro other
    rw [toData, Value.ofEntries, readNode_interaction (ownId_of_text named rfl other) rfl]
    simp [entry, fieldsOf_toData fields_, Value.isVoid, bind, Except.bind, pure, Except.pure]
  | @call id name response ended named name_ response_ =>
    intro other
    rw [toData, Value.ofEntries, readNode_call (ownId_of_text named rfl other) rfl]
    have same (b : Bool) : .ok (.call id (name.orElse (.text "")) (response.orElse (.text "")) b) =
        (.ok (.call id name response b) : Except DocumentError Node) := by
      rw [name_, response_]
    cases ended <;> exact same _
  | decision named yes_ no_ ihYes ihNo =>
    intro other
    rw [toData, Value.ofEntries, readNode_decision (ownId_of_text named rfl other) rfl,
      readBlock_toDataAll rfl ihYes, readBlock_toDataAll rfl ihNo]
    rfl
  | whileLoop named actions_ ih =>
    intro other
    rw [toData, Value.ofEntries, readNode_whileLoop (ownId_of_text named rfl other) rfl,
      readBlock_toDataAll rfl ih]
    rfl
  | doWhile named actions_ ih =>
    intro other
    rw [toData, Value.ofEntries, readNode_doWhile (ownId_of_text named rfl other) rfl,
      readBlock_toDataAll rfl ih]
    rfl
  | @unknown id type definition named other noId noType =>
    exact readNode_toData_unknown named other noId noType

/-! ## What is read is canonical -/

theorem unread_shown {entries : Entries Unit} {type : String}
    (other : ∀ t ∈ nodeTypes, nodeType entries ≠ .text t)
    (shown : (nodeType entries).shown = .ok type) : type ∉ nodeTypes := by
  intro member
  by_cases text : ∃ t, nodeType entries = .text t
  · obtain ⟨t, same⟩ := text
    rw [same] at shown
    cases shown
    exact other type member same
  · obtain ⟨c, mark, head⟩ := Value.shown_marked (fun t same => text ⟨t, same⟩) shown
    have unmarked : nodeTypes.all (fun t => listingMarks.all fun c => t.toList.head? != some c) =
        true := by decide
    have other := List.all_eq_true.mp (List.all_eq_true.mp unmarked _ member) c mark
    exact bne_iff_ne.mp other head

theorem canonical_of_readBlock {entries : Entries Unit} {key owner : String} {nodes : List Node}
    (below : ∀ key label items, entry entries key = .list label items → ∀ place i nodes,
      readNodes items place i = .ok nodes → ∀ n ∈ nodes, n.Canonical)
    (read : readBlock entries key owner = .ok nodes) : ∀ n ∈ nodes, n.Canonical := by
  obtain ⟨label, items, block, inside⟩ | ⟨-, rfl⟩ := readBlock_eq_ok read
  · exact below key label items block _ 0 nodes inside
  · exact fun n inside => absurd inside List.not_mem_nil

theorem canonical_of_unknown {entries : Entries Unit} {label : Unit} {id place : String} {n : Node}
    (own : OwnId entries place id) (named : id ≠ "")
    (other : ∀ t ∈ nodeTypes, nodeType entries ≠ .text t)
    (read : readNode (.map label entries) place = .ok n) : n.Canonical := by
  rw [readNode_unknown own other] at read
  obtain ⟨type, shown, same⟩ := bind_eq_ok.mp read
  cases same
  have gone {name : String} (member : name ∈ ["id", "type"]) :
      Entries.field? ((entries.erase (.text "id")).erase (.text "type")) name = none :=
    field?_foldl_erase entries member
  exact .unknown named (unread_shown other (shownText_eq_ok.mp shown)) (gone (by decide))
    (gone (by decide))

theorem canonical_of_readNode {entries : Entries Unit} {label : Unit} {id place : String} {n : Node}
    (below : ∀ key label items, entry entries key = .list label items → ∀ place i nodes,
      readNodes items place i = .ok nodes → ∀ n ∈ nodes, n.Canonical)
    (own : OwnId entries place id) (named : id ≠ "")
    (read : readNode (.map label entries) place = .ok n) : n.Canonical := by
  obtain ⟨t, member, type⟩ | other := nodeType_cases entries
  · simp only [nodeTypes, List.mem_cons, List.not_mem_nil, or_false] at member
    rcases member with rfl | rfl | rfl | rfl | rfl
    · rw [readNode_interaction own type] at read
      obtain ⟨fields, readFields, same⟩ := bind_eq_ok.mp read
      cases same
      exact .interaction named (canonical_of_fieldsOf readFields)
    · rw [readNode_call own type] at read
      cases read
      exact .call named (Value.filled_textEntry ..) ((Value.filled_textEntry ..).orElse _)
    · rw [readNode_decision own type] at read
      obtain ⟨yes, readYes, rest⟩ := bind_eq_ok.mp read
      obtain ⟨no, readNo, same⟩ := bind_eq_ok.mp rest
      cases same
      exact .decision named (canonical_of_readBlock below readYes)
        (canonical_of_readBlock below readNo)
    · rw [readNode_whileLoop own type] at read
      obtain ⟨actions, readActions, same⟩ := bind_eq_ok.mp read
      cases same
      exact .whileLoop named (canonical_of_readBlock below readActions)
    · rw [readNode_doWhile own type] at read
      obtain ⟨actions, readActions, same⟩ := bind_eq_ok.mp read
      cases same
      exact .doWhile named (canonical_of_readBlock below readActions)
  · exact canonical_of_unknown own named other read

theorem canonical_inherited : Inherited
    (fun v => ∀ id n, id ≠ "" → readNode v id = .ok n → n.Canonical)
    (fun items => ∀ place i nodes, readNodes items place i = .ok nodes →
      ∀ n ∈ nodes, n.Canonical) where
  atom s := by
    intro id n placed read
    cases read
  list label items := by
    intro id n placed read
    cases read
  map label entries below := by
    intro id n placed read
    obtain ⟨m, own⟩ : ∃ m, OwnId entries id m := ⟨_, (readNode_eq_ok read).1⟩
    exact canonical_of_readNode below own (own.ne_empty placed) read
  nil := by
    intro place i nodes read
    cases read
    exact fun n inside => absurd inside List.not_mem_nil
  cons v rest first later := by
    intro place i nodes read
    unfold readNodes at read
    obtain ⟨n, readFirst, more⟩ := bind_eq_ok.mp read
    obtain ⟨ns, readRest, same⟩ := bind_eq_ok.mp more
    cases same
    intro m inside
    obtain rfl | behind := List.mem_cons.mp inside
    · -- places are never empty, so a node without an id of its own has one too
      exact first _ m (Place.childId_ne_empty place i) readFirst
    · exact later place _ ns readRest m behind

end Node

/-- A workflow is kept when it is written and read again, with the ids that its nodes took from
their places. -/
theorem readWorkflow_written {document : Data} {nodes : List Node}
    (read : readWorkflow document = .ok nodes) :
    readWorkflow (.ofList (Node.toDataAll nodes)) = .ok nodes := by
  obtain ⟨label, items, list⟩ : ∃ label items, unwrapped document = .list label items := by
    unfold readWorkflow at read
    split at read
    · exact ⟨_, _, by assumption⟩
    · cases read
  rw [readWorkflow, list] at read
  obtain ⟨found, readItems, unique⟩ := bind_eq_ok.mp read
  have canonical := Node.canonical_inherited.holds_all items .top 0 found readItems
  have again : readNodes (Node.toDataAll found) .top 0 = .ok found :=
    Node.readNodes_toDataAll (fun n inside => Node.readNode_toData (canonical n inside)) .top 0
  have same : nodes = found := by
    unfold checkIds at unique
    split at unique
    · cases unique
    · cases unique
      rfl
  rw [← same] at again unique
  exact bind_eq_ok.mpr ⟨nodes, again, unique⟩

/-- A document that leaves ids, types and blocks out, has a list for an id and names a response
by its alias. -/
def mixedDocument : Data :=
  .ofEntries [(.text "workflow", .ofList [
    .ofEntries [(.text "type", .text "user_interaction"), (.text "prompt", .text "Who?"),
      (.text "ended", .text "no"), (.text "fields", .ofList [
        .ofEntries [(.text "name", .bool true), (.text "type", .text "numeric"),
          (.text "attributes", .ofEntries [(.text "hint", .null), (.text "min", .text "0"),
            (.text "optional", .text "yes"), (.text "unit", .text "kg")])],
        .ofEntries [(.text "name", .text "city")]])],
    .ofEntries [(.text "id", .ofList [.null]), (.text "type", .text "decision"),
      (.text "if_block", .ofList [
        .ofEntries [(.text "type", .text "do_while"), (.text "actions", .ofList [
          .ofEntries [(.text "type", .text "api_call"), (.text "id", .text ""),
            (.text "response", .text "seen")]])]]),
      (.text "else_block", .null)],
    .ofEntries [(.text "type", .null), (.text "note", .bool false)]])]

def mixedNodes : List Node := [
  .interaction "step_0" (.text "Who?") [
    ⟨"True", "numeric", ⟨true, .null, .null, .text "0", .null,
      [(.text "hint", .null), (.text "unit", .text "kg")]⟩⟩,
    ⟨"city", "text", ⟨false, .null, .null, .null, .null, []⟩⟩] true,
  .decision "[None]" .null [
    .doWhile "[None].if_block.0" .null [
      .call "[None].if_block.0.actions.0" (.text "") (.text "seen") false]] [],
  .unknown "step_2" "None" [(.text "note", .bool false)]]

theorem readWorkflow_written_mixed : readWorkflow mixedDocument = .ok mixedNodes ∧
    readWorkflow (.ofList (Node.toDataAll mixedNodes)) = .ok mixedNodes :=
  have read : readWorkflow mixedDocument = .ok mixedNodes := rfl
  ⟨read, readWorkflow_written read⟩

end Walkthrough
