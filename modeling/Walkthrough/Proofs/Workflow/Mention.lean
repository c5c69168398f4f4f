import Mathlib.Data.List.Lex
import Walkthrough.Proofs.Text.Parts
import Walkthrough.Workflow.Usage

/-! The expressions in which a response is mentioned. An expression has an address in the workflow,
and addresses come in document order. Listed are the expressions in which the name of the response
occurs, each once and by its first address. An expression that only goes on to a longer name
mentions the shorter one as well; without such expressions, the list holds those that read the
response. -/
namespace Walkthrough

/-- The expressions of a field, the options before the label. -/
inductive Field.Offers (f : Field) : Nat → String → Prop where
  | options {s : String} (text : f.attributes.options = .text s) : f.Offers 0 s
  | label {s : String} (text : f.attributes.label = .text s) : f.Offers 1 s

mutual

/-- The expressions in a node, by the number of the field and the attribute, or by the number of
the block and the address in the block. -/
inductive Node.Offers : Node → List Nat → String → Prop where
  | field {id : String} {prompt : Data} {fields : List Field} {ended : Bool} {f : Field}
      {i k : Nat} {s : String} (here : fields[i]? = some f) (offers : f.Offers k s) :
      Node.Offers (.interaction id prompt fields ended) [i, k] s
  | block {n : Node} {block : List Node} {i : Nat} {address : List Nat} {s : String}
      (here : n.blocks[i]? = some block) (inside : Offered block address s) :
      Node.Offers n (i :: address) s

/-- The expressions in a workflow, by the number of the node and the address in the node. -/
inductive Offered : List Node → List Nat → String → Prop where
  | node {nodes : List Node} {n : Node} {i : Nat} {address : List Nat} {s : String}
      (here : nodes[i]? = some n) (offers : n.Offers address s) : Offered nodes (i :: address) s

end

/-- The response of a name occurs in an expression. -/
def Mentions (name s : String) : Prop := "api_responses.".toList ++ name.toList <:+: s.toList

/-- It occurs at a place at which the name ends, given the characters that names are made of. -/
def Reads (word : Char → Bool) (name s : String) : Prop :=
  ∃ before after, s.toList = before ++ ("api_responses.".toList ++ name.toList) ++ after ∧
    ∀ c ∈ after.head?, word c = false

/-- The expressions of a kind, each once and in the order of their first addresses. -/
structure Listed (offered : List Nat → String → Prop) (kind : String → Prop)
    (found : List String) : Prop where
  once : found.Nodup
  exact : ∀ s, s ∈ found ↔ (∃ a, offered a s) ∧ kind s
  ordered : found.Pairwise fun s t => ∃ a, offered a s ∧ ∀ b, offered b t → a < b

/-! ## Addresses -/

/-- All expressions with their addresses, in the order of these. -/
structure Traces (offered : List Nat → String → Prop) (all : List (List Nat × String)) : Prop where
  exact : ∀ a s, (a, s) ∈ all ↔ offered a s
  ordered : all.Pairwise fun p q => p.1 < q.1

def under (i : Nat) (all : List (List Nat × String)) : List (List Nat × String) :=
  all.map fun p => (i :: p.1, p.2)

namespace Traces

variable {offered offered' : List Nat → String → Prop} {all all' : List (List Nat × String)}

theorem nil (none : ∀ a s, ¬offered a s) : Traces offered [] :=
  ⟨fun a s => ⟨nofun, fun here => absurd here (none a s)⟩, .nil⟩

theorem congr (traces : Traces offered all) (same : ∀ a s, offered a s ↔ offered' a s) :
    Traces offered' all :=
  ⟨fun a s => (traces.exact a s).trans (same a s), traces.ordered⟩

theorem under (traces : Traces offered all) (i : Nat) :
    Traces (fun a s => ∃ b, a = i :: b ∧ offered b s) (under i all) := by
  refine ⟨fun a s => ?_, ?_⟩
  · simp only [Walkthrough.under, List.mem_map, Prod.mk.injEq, Prod.exists]
    constructor
    · rintro ⟨b, t, inside, rfl, rfl⟩
      exact ⟨b, rfl, (traces.exact b t).mp inside⟩
    · rintro ⟨b, rfl, here⟩
      exact ⟨b, s, (traces.exact b s).mpr here, rfl, rfl⟩
  · refine List.pairwise_map.mpr (traces.ordered.imp fun less => ?_)
    exact List.cons_lt_cons_iff.mpr (.inr ⟨rfl, less⟩)

theorem append (traces : Traces offered all) (traces' : Traces offered' all')
    (before : ∀ a s b t, offered a s → offered' b t → a < b) :
    Traces (fun a s => offered a s ∨ offered' a s) (all ++ all') := by
  refine ⟨fun a s => ?_, ?_⟩
  · rw [List.mem_append, traces.exact, traces'.exact]
  · refine List.pairwise_append.mpr ⟨traces.ordered, traces'.ordered, fun p first q second => ?_⟩
    exact before p.1 p.2 q.1 q.2 ((traces.exact p.1 p.2).mp first) ((traces'.exact q.1 q.2).mp second)

end Traces

/-- The same of a list of things, each at the number of its place from some number on. -/
theorem Traces.cons {α : Type} {x : α} {rest : List α} {all all' : List (List Nat × String)}
    {k : Nat} (inner : α → List Nat → String → Prop) (traces : Traces (inner x) all)
    (traces' : Traces (fun a s => ∃ i b y, a = (k + 1 + i) :: b ∧ rest[i]? = some y ∧ inner y b s)
      all') :
    Traces (fun a s => ∃ i b y, a = (k + i) :: b ∧ (x :: rest)[i]? = some y ∧ inner y b s)
      (Walkthrough.under k all ++ all') := by
  have before : ∀ a s b t, (∃ b, a = k :: b ∧ inner x b s) →
      (∃ i c y, b = (k + 1 + i) :: c ∧ rest[i]? = some y ∧ inner y c t) → a < b := by
    rintro _ s _ t ⟨a, rfl, -⟩ ⟨i, b, y, rfl, -, -⟩
    exact List.cons_lt_cons_iff.mpr (.inl (by omega))
  refine ((traces.under k).append traces' before).congr fun a s => ?_
  constructor
  · rintro (⟨b, rfl, here⟩ | ⟨i, b, y, rfl, there, here⟩)
    · exact ⟨0, b, x, rfl, rfl, here⟩
    · exact ⟨i + 1, b, y, by rw [Nat.add_right_comm, Nat.add_assoc k i 1], there, here⟩
  · rintro ⟨_ | i, b, y, rfl, there, here⟩
    · cases there
      exact .inl ⟨b, rfl, here⟩
    · exact .inr ⟨i, b, y, by rw [Nat.add_right_comm, Nat.add_assoc k i 1], there, here⟩

theorem Traces.alone {α : Type} {x : α} {all : List (List Nat × String)} {k : Nat}
    (inner : α → List Nat → String → Prop) (traces : Traces (inner x) all) :
    Traces (fun a s => ∃ i b y, a = (k + i) :: b ∧ [x][i]? = some y ∧ inner y b s)
      (Walkthrough.under k all) := by
  rw [← List.append_nil (Walkthrough.under k all)]
  exact Traces.cons inner traces (.nil (by simp))

def tracedText (k : Nat) : Data → List (List Nat × String)
  | .text s => [([k], s)]
  | _ => []

def Field.traced (f : Field) : List (List Nat × String) :=
  tracedText 0 f.attributes.options ++ tracedText 1 f.attributes.label

def tracedFields (k : Nat) : List Field → List (List Nat × String)
  | [] => []
  | f :: rest => under k f.traced ++ tracedFields (k + 1) rest

mutual

def Node.traced : Node → List (List Nat × String)
  | .interaction _ _ fields _ => tracedFields 0 fields
  | .decision _ _ yes no => under 0 (tracedNodes 0 yes) ++ under 1 (tracedNodes 0 no)
  | .whileLoop _ _ actions => under 0 (tracedNodes 0 actions)
  | .doWhile _ _ actions => under 0 (tracedNodes 0 actions)
  | .call .. => []
  | .unknown .. => []

def tracedNodes (k : Nat) : List Node → List (List Nat × String)
  | [] => []
  | n :: rest => under k n.traced ++ tracedNodes (k + 1) rest

end

theorem traces_text (k : Nat) (v : Data) :
    Traces (fun a s => a = [k] ∧ v = .text s) (tracedText k v) := by
  unfold tracedText
  split
  · refine ⟨fun a s => ?_, List.pairwise_singleton _ _⟩
    simp [eq_comm]
  · rename_i other
    exact .nil fun a s here => other s here.2

theorem Field.traces (f : Field) : Traces (fun a s => ∃ k, a = [k] ∧ f.Offers k s) f.traced := by
  have before : ∀ a s b t, (a = [0] ∧ f.attributes.options = .text s) →
      (b = [1] ∧ f.attributes.label = .text t) → a < b := by
    rintro _ s _ t ⟨rfl, -⟩ ⟨rfl, -⟩
    decide
  refine ((traces_text 0 _).append (traces_text 1 _) before).congr fun a s => ?_
  constructor
  · rintro (⟨rfl, text⟩ | ⟨rfl, text⟩)
    · exact ⟨0, rfl, .options text⟩
    · exact ⟨1, rfl, .label text⟩
  · rintro ⟨k, rfl, text | text⟩
    · exact .inl ⟨rfl, text⟩
    · exact .inr ⟨rfl, text⟩

theorem traces_fields (k : Nat) (fields : List Field) :
    Traces (fun a s => ∃ i b f, a = (k + i) :: b ∧ fields[i]? = some f ∧
      ∃ j, b = [j] ∧ f.Offers j s) (tracedFields k fields) := by
  induction fields generalizing k with
  | nil => exact .nil (by simp)
  | cons f rest ih =>
    exact .cons (fun f b s => ∃ j, b = [j] ∧ Field.Offers f j s) f.traces (ih (k + 1))

theorem offered_iff {nodes : List Node} {a : List Nat} {s : String} : Offered nodes a s ↔
    ∃ i b n, a = i :: b ∧ nodes[i]? = some n ∧ n.Offers b s := by
  constructor
  · rintro ⟨here, offers⟩
    exact ⟨_, _, _, rfl, here, offers⟩
  · rintro ⟨i, b, n, rfl, here, offers⟩
    exact .node here offers

theorem Node.offers_iff {n : Node} (blocks : ∀ id prompt fields ended,
    n ≠ .interaction id prompt fields ended) {a : List Nat} {s : String} : n.Offers a s ↔
      ∃ i b block, a = i :: b ∧ n.blocks[i]? = some block ∧ Offered block b s := by
  constructor
  · rintro (here | ⟨here, inside⟩)
    · exact absurd rfl (blocks _ _ _ _)
    · exact ⟨_, _, _, rfl, here, inside⟩
  · rintro ⟨i, b, block, rfl, here, inside⟩
    exact .block here inside

mutual

theorem Node.traces : ∀ n : Node, Traces n.Offers n.traced
  | .interaction id prompt fields ended => by
    refine (traces_fields 0 fields).congr fun a s => ?_
    simp only [Nat.zero_add]
    constructor
    · rintro ⟨i, _, f, rfl, here, j, rfl, offers⟩
      exact .field here offers
    · rintro (⟨here, offers⟩ | ⟨here, -⟩)
      · exact ⟨_, _, _, rfl, here, _, rfl, offers⟩
      · cases here
  | .decision id e yes no => by
    have blocks := Traces.cons (k := 0) Offered (traces_nodes yes)
      (Traces.alone (k := 1) Offered (traces_nodes no))
    refine blocks.congr fun a s => ?_
    rw [Node.offers_iff (by simp)]
    simp only [Nat.zero_add, Node.blocks]
  | .whileLoop id e actions => by
    refine (Traces.alone (k := 0) Offered (traces_nodes actions)).congr fun a s => ?_
    rw [Node.offers_iff (by simp)]
    simp only [Nat.zero_add, Node.blocks]
  | .doWhile id e actions => by
    refine (Traces.alone (k := 0) Offered (traces_nodes actions)).congr fun a s => ?_
    rw [Node.offers_iff (by simp)]
    simp only [Nat.zero_add, Node.blocks]
  | .call id name response ended => .nil fun a s offers => by
    cases offers with
    | block here inside => cases here
  | .unknown id type definition => .nil fun a s offers => by
    cases offers with
    | block here inside => cases here

theorem traces_nodesFrom : ∀ (k : Nat) (nodes : List Node),
    Traces (fun a s => ∃ i b n, a = (k + i) :: b ∧ nodes[i]? = some n ∧ n.Offers b s)
      (tracedNodes k nodes)
  | k, [] => .nil (by simp)
  | k, n :: rest => .cons Node.Offers n.traces (traces_nodesFrom (k + 1) rest)

theorem traces_nodes (nodes : List Node) : Traces (Offered nodes) (tracedNodes 0 nodes) := by
  refine (traces_nodesFrom 0 nodes).congr fun a s => ?_
  rw [offered_iff]
  simp only [Nat.zero_add]

end

@[simp] theorem map_under (i : Nat) (all : List (List Nat × String)) :
    (under i all).map Prod.snd = all.map Prod.snd := by
  simp [under]

theorem Field.map_traced (f : Field) : f.traced.map Prod.snd = f.expressions := by
  have text (k : Nat) (v : Data) : (tracedText k v).map Prod.snd =
      [v].filterMap fun v => match v with
        | .text s => some s
        | _ => none := by
    unfold tracedText
    split
    · rfl
    · simp
  rw [traced, List.map_append, text, text, ← List.filterMap_append]
  rfl

theorem map_tracedFields (k : Nat) (fields : List Field) :
    (tracedFields k fields).map Prod.snd = fields.flatMap Field.expressions := by
  induction fields generalizing k with
  | nil => rfl
  | cons f rest ih => simp [tracedFields, f.map_traced, ih]

mutual

/-- In document order the nodes show their expressions by their addresses. -/
theorem Node.map_traced : ∀ n : Node,
    n.traced.map Prod.snd = n.walk.flatMap Node.fieldExpressions
  | .interaction id prompt fields ended => by
    simp [Node.traced, Node.walk, Node.fieldExpressions, map_tracedFields]
  | .decision id e yes no => by
    simp [Node.traced, Node.walk, Node.fieldExpressions, map_tracedNodes 0 yes,
      map_tracedNodes 0 no]
  | .whileLoop id e actions => by
    simp [Node.traced, Node.walk, Node.fieldExpressions, map_tracedNodes 0 actions]
  | .doWhile id e actions => by
    simp [Node.traced, Node.walk, Node.fieldExpressions, map_tracedNodes 0 actions]
  | .call .. => rfl
  | .unknown .. => rfl

theorem map_tracedNodes : ∀ (k : Nat) (nodes : List Node),
    (tracedNodes k nodes).map Prod.snd = (Node.walkAll nodes).flatMap Node.fieldExpressions
  | _, [] => rfl
  | k, n :: rest => by
    simp [tracedNodes, Node.walkAll, n.map_traced, map_tracedNodes (k + 1) rest]

end

/-! ## First places -/

section Distinct

variable {seen found : List String} {s : String}

theorem mem_distinct : s ∈ distinct seen found ↔ s ∈ found ∧ s ∉ seen := by
  induction found generalizing seen with
  | nil => simp [distinct]
  | cons t found ih =>
    rw [distinct]
    split
    · rename_i known
      have inside : t ∈ seen := by simpa using known
      rw [ih, List.mem_cons]
      constructor
      · exact fun here => ⟨.inr here.1, here.2⟩
      · rintro ⟨rfl | here, fresh⟩
        · exact absurd inside fresh
        · exact ⟨here, fresh⟩
    · rename_i fresh
      have outside : t ∉ seen := by simpa using fresh
      rw [List.mem_cons, ih, List.mem_cons, List.mem_cons]
      by_cases same : s = t
      · simp [same, outside]
      · simp [same]

/-- What is kept stands somewhere before all places of what is kept behind it. -/
theorem pairwise_distinct (seen : List String) {all : List (List Nat × String)}
    (ordered : all.Pairwise fun p q => p.1 < q.1) :
    (distinct seen (all.map Prod.snd)).Pairwise fun s t =>
      ∃ a, (a, s) ∈ all ∧ ∀ b, (b, t) ∈ all → a < b := by
  induction all generalizing seen with
  | nil => exact .nil
  | cons p all ih =>
    obtain ⟨first, ordered⟩ := List.pairwise_cons.mp ordered
    -- a text other than the first one has its places behind the first
    have later {b : List Nat} {t : String} (other : t ≠ p.2) (inside : (b, t) ∈ p :: all) :
        (b, t) ∈ all := by
      rcases List.mem_cons.mp inside with rfl | inside
      · exact absurd rfl other
      · exact inside
    have rest : ∀ seen : List String, p.2 ∈ seen →
        (distinct seen (all.map Prod.snd)).Pairwise fun s t =>
          ∃ a, (a, s) ∈ p :: all ∧ ∀ b, (b, t) ∈ p :: all → a < b := by
      intro seen known
      refine (ih seen ordered).imp_of_mem fun {s t} _ kept before => ?_
      obtain ⟨a, inside, less⟩ := before
      have other : t ≠ p.2 := fun same => (mem_distinct.mp kept).2 (same ▸ known)
      exact ⟨a, List.mem_cons_of_mem p inside, fun b here => less b (later other here)⟩
    rw [List.map_cons, distinct]
    split
    · rename_i known
      exact rest seen (by simpa using known)
    · refine List.pairwise_cons.mpr ⟨fun t kept => ?_, rest _ List.mem_cons_self⟩
      have other : t ≠ p.2 := fun same => (mem_distinct.mp kept).2 (same ▸ List.mem_cons_self)
      exact ⟨p.1, List.mem_cons_self, fun b here => first _ (later other here)⟩

end Distinct

variable {offered : List Nat → String → Prop} {all : List (List Nat × String)}

theorem Traces.listed {kind : String → Prop} {p : String → Bool} (traces : Traces offered all)
    (decides : ∀ s, p s = true ↔ kind s) :
    Listed offered kind (distinct [] ((all.map Prod.snd).filter p)) := by
  have kept : (all.filter fun q => p q.2).map Prod.snd = (all.map Prod.snd).filter p := by
    rw [List.filter_map]
    rfl
  have sorted := pairwise_distinct [] (traces.ordered.filter fun q => p q.2)
  rw [kept] at sorted
  have inside {a : List Nat} {s : String} (chosen : p s = true) :
      (a, s) ∈ all.filter (fun q => p q.2) ↔ offered a s := by
    simp [List.mem_filter, chosen, traces.exact]
  have exact (s : String) : s ∈ distinct [] ((all.map Prod.snd).filter p) ↔
      (∃ a, offered a s) ∧ kind s := by
    rw [mem_distinct, List.mem_filter, decides]
    simp [traces.exact]
  have ordered : (distinct [] ((all.map Prod.snd).filter p)).Pairwise fun s t =>
      ∃ a, offered a s ∧ ∀ b, offered b t → a < b := by
    refine sorted.imp_of_mem fun {s t} first second before => ?_
    obtain ⟨a, here, less⟩ := before
    have chosen := (decides s).mpr ((exact s).mp first).2
    have chosen' := (decides t).mpr ((exact t).mp second).2
    exact ⟨a, (inside chosen).mp here, fun b there => less b ((inside chosen').mpr there)⟩
  refine ⟨ordered.imp_of_mem fun {s t} _ second before => ?_, exact, ordered⟩
  rintro rfl
  obtain ⟨a, here, less⟩ := before
  exact lt_irrefl a (less a here)

theorem usages_mention (nodes : List Node) (name : String) :
    Listed (Offered nodes) (Mentions name) (usages nodes name) := by
  rw [usages, ← map_tracedNodes 0]
  exact (traces_nodes nodes).listed fun s => Text.occursIn_iff

theorem Reads.mentions {word : Char → Bool} {name s : String} (reads : Reads word name s) :
    Mentions name s := by
  obtain ⟨before, after, whole, -⟩ := reads
  exact ⟨before, after, whole.symm⟩

/-- Whatever characters names are made of: listed are the expressions in which a response is
mentioned, and these are the ones that read it unless the response is mentioned only in names that
go on. -/
theorem usages_listed (word : Char → Bool) (nodes : List Node) (name : String) :
    Listed (Offered nodes) (Mentions name) (usages nodes name) ∧
      (Listed (Offered nodes) (Reads word name) (usages nodes name) ↔
        ∀ a s, Offered nodes a s → Mentions name s → Reads word name s) := by
  have listed := usages_mention nodes name
  refine ⟨listed, fun reads a s offered mentions => ?_, fun reads => ?_⟩
  · have inside := (listed.exact s).mpr ⟨⟨a, offered⟩, mentions⟩
    exact ((reads.exact s).mp inside).2
  · refine ⟨listed.once, fun s => ?_, listed.ordered⟩
    rw [listed.exact]
    constructor
    · rintro ⟨⟨a, offered⟩, mentions⟩
      exact ⟨⟨a, offered⟩, reads a s offered mentions⟩
    · rintro ⟨offered, here⟩
      exact ⟨offered, here.mentions⟩

namespace Sample

def choice (options : String) : Node :=
  .interaction "pick" .null [⟨"product", "text", ⟨false, .text options, .null, .null, .null, []⟩⟩] false

def isNameChar (c : Char) : Bool := c.isAlphanum || c == '_'

end Sample

open Sample in
/-- The response of `search` is mentioned in the name of `search2`, but not read there. -/
theorem not_reads_longer :
    let nodes := [choice "api_responses.search2.items"]
    usages nodes "search" = ["api_responses.search2.items"] ∧
      ¬Reads isNameChar "search" "api_responses.search2.items" ∧
      ¬Listed (Offered nodes) (Reads isNameChar "search") (usages nodes "search") := by
  have unread : ¬Reads isNameChar "search" "api_responses.search2.items" := by
    rintro ⟨before, after, whole, ends⟩
    have place : "api_responses.".toList ++ "search".toList <+:
        "api_responses.search2.items".toList.drop before.length := by
      rw [whole, List.append_assoc, List.drop_left]
      exact List.prefix_append _ _
    have first : ∀ i ≤ "api_responses.search2.items".toList.length,
        "api_responses.".toList ++ "search".toList <+:
          "api_responses.search2.items".toList.drop i → i = 0 := by decide
    have size : before.length ≤ "api_responses.search2.items".toList.length := by
      rw [whole, List.append_assoc, List.length_append]
      exact Nat.le_add_right _ _
    obtain rfl := List.length_eq_zero_iff.mp (first before.length size place)
    have rest : after = "2.items".toList := List.append_cancel_left whole.symm
    cases ends '2' (rest ▸ rfl)
  have found : usages [choice "api_responses.search2.items"] "search" =
      ["api_responses.search2.items"] := by decide
  refine ⟨found, unread, fun listed => unread ((listed.exact _).mp ?_).2⟩
  rw [found]
  exact List.mem_singleton_self _

end Walkthrough
