import Walkthrough.Proofs.Text.Parts
import Walkthrough.Service.Tool

/-! Text given for parameters that are declared to hold containers. Unions are looked through for
containers at any depth, but text is looked for in all direct arguments, also those of a container.
So an annotation that does not admit text can let it pass. -/
namespace Walkthrough

open Json Text

namespace Annotation

/-- A container that is declared, by itself or as a member of a union. -/
inductive Admits : Annotation → Container → Prop where
  | container (kind : Container) (arguments : List Annotation) :
      Admits (.container kind arguments) kind
  | mapping (arguments : List Annotation) : Admits (.mapping arguments) .map
  | sequence (arguments : List Annotation) : Admits (.sequence arguments) .list
  | member {a : Annotation} {kind : Container} {members : List Annotation} (inside : a ∈ members)
      (admits : Admits a kind) : Admits (.union members) kind

/-- Text is declared, by itself or as a member of a union. -/
inductive AdmitsText : Annotation → Prop where
  | text : AdmitsText .text
  | member {members : List Annotation} (inside : .text ∈ members) : AdmitsText (.union members)

end Annotation

/-- What may be in a container of a kind. Items stand for those of a list or of a tuple. -/
inductive Container.Holds : Container → Data → Prop where
  | list {label : Unit} {items : List Data} : Holds .list (.list label items)
  | tuple {label : Unit} {items : List Data} : Holds .tuple (.list label items)
  | map {label : Unit} {entries : Entries Unit} : Holds .map (.map label entries)

namespace Annotation

variable {a : Annotation} {name s : String} {kind : Container} {v w : Data}

/-- Text is refused, or read as a container that is declared. -/
inductive Converts (a : Annotation) (name s : String) : Prop where
  | refused {e : ParameterError} (fails : a.convert name (.text s) = .error e)
  | read {kind : Container} {v : Data} (reads : a.convert name (.text s) = .ok (.read kind v))
      (admits : a.Admits kind) (holds : kind.Holds v)

mutual

theorem mem_accepted : ∀ a : Annotation, kind ∈ a.accepted ↔ a.Admits kind
  | .text | .other => by
    rw [accepted]
    exact ⟨nofun, nofun⟩
  | .container own arguments => by
    rw [accepted, List.mem_singleton]
    constructor
    · rintro rfl
      exact .container kind arguments
    · rintro ⟨⟩
      rfl
  | .mapping arguments => by
    rw [accepted, List.mem_singleton]
    constructor
    · rintro rfl
      exact .mapping arguments
    · rintro ⟨⟩
      rfl
  | .sequence arguments => by
    rw [accepted, List.mem_singleton]
    constructor
    · rintro rfl
      exact .sequence arguments
    · rintro ⟨⟩
      rfl
  | .union members => by
    rw [accepted, mem_acceptedAny members]
    constructor
    · rintro ⟨a, inside, admits⟩
      exact .member inside admits
    · intro admits
      cases admits with
      | member inside admits => exact ⟨_, inside, admits⟩

theorem mem_acceptedAny : ∀ members : List Annotation,
    kind ∈ acceptedAny members ↔ ∃ a ∈ members, a.Admits kind
  | [] => by simp [acceptedAny]
  | a :: rest => by
    rw [acceptedAny, List.mem_append, mem_accepted a, mem_acceptedAny rest]
    simp

end

theorem mentionsText_iff : a.mentionsText = true ↔ a = .text ∨ .text ∈ a.arguments := by
  have isText_iff (b : Annotation) : b.isText = true ↔ b = .text := by cases b <;> simp [isText]
  rw [mentionsText, Bool.or_eq_true, isText_iff, List.any_eq_true]
  refine or_congr_right ⟨?_, fun inside => ⟨_, inside, rfl⟩⟩
  rintro ⟨b, inside, text⟩
  exact (isText_iff b).mp text ▸ inside

theorem holds_of_containerOf {kinds : List Container} (found : containerOf kinds v = some kind) :
    kind.Holds v := by
  unfold containerOf at found
  split at found
  · cases found
    split
    · exact .tuple
    · exact .list
  · cases found
    exact .map
  · cases found

/-- A list becomes a tuple where a tuple is admitted, so one of the two is enough for it. -/
theorem containerOf_of_holds {kinds : List Container} (admitted : kind ∈ kinds)
    (holds : kind.Holds v) : ∃ own ∈ kinds, containerOf kinds v = some own := by
  cases holds with
  | tuple =>
    refine ⟨.tuple, admitted, ?_⟩
    simp [containerOf, admitted]
  | list =>
    by_cases tuple : .tuple ∈ kinds
    · exact ⟨.tuple, tuple, by simp [containerOf, tuple]⟩
    · exact ⟨.list, admitted, by simp [containerOf, tuple]⟩
  | map => exact ⟨.map, admitted, rfl⟩

theorem nonempty_of_admits (admits : a.Admits kind) : a.accepted.isEmpty = false :=
  List.isEmpty_eq_false_iff_exists_mem.mpr ⟨kind, (mem_accepted a).mpr admits⟩

theorem convert_of_plain (admits : a.Admits kind) (plain : opensContainer (strip s) = false) :
    a.convert name (.text s) =
      if a.mentionsText then .ok (.given (.text s)) else .error (.plainText name a.accepted) := by
  simp only [convert, nonempty_of_admits admits, plain, Bool.false_eq_true, if_false]

theorem converts_of_opens (admits : a.Admits kind) (opens : opensContainer (strip s) = true) :
    a.Converts name s := by
  cases outcome : a.convert name (.text s) with
  | error e => exact .refused outcome
  | ok argument =>
    have ways := outcome
    simp only [convert, nonempty_of_admits admits, opens, Bool.false_eq_true, if_false,
      if_true] at ways
    split at ways
    · cases ways
    · cases ways
    · split at ways
      · cases ways
      · rename_i own found
        split at ways
        · rename_i accepted
          cases ways
          have declared := (mem_accepted a).mp (List.contains_iff_mem.mp accepted)
          exact .read outcome declared (holds_of_containerOf found)
        · cases ways

theorem convert_of_holds (admits : a.Admits kind) (reads : read? (strip s) = some v)
    (holds : kind.Holds v) (opens : opensContainer (strip s) = true) :
    ∃ own, a.convert name (.text s) = .ok (.read own v) := by
  obtain ⟨own, accepted, found⟩ := containerOf_of_holds ((mem_accepted a).mpr admits) holds
  refine ⟨own, ?_⟩
  simp only [convert, nonempty_of_admits admits, opens, read_eq_some.mpr reads, found,
    List.contains_iff_mem.mpr accepted, Bool.false_eq_true, if_false, if_true]

/-! ## Containers in text -/

end Annotation

def Json.Token.opens : Token → Bool
  | .openList | .openMap => true
  | _ => false

variable {s : String} {cs more : List Char} {c : Char} {kind : Container} {v : Data} {t : Token}
  {ts : List Token}

theorem step_nothing (v : Data) (t : Token) : Reading.step ⟨[], .nothing v, []⟩ t = none := by
  cases t <;> rfl

/-- A value that is no container is the last of its text. -/
theorem opens_of_ofTokens? (reads : ofTokens? (t :: ts) = some v) (holds : kind.Holds v) :
    t.opens = true := by
  obtain ⟨r, run, result⟩ := Option.bind_eq_some_iff.mp reads
  rw [List.foldlM_cons] at run
  obtain ⟨next, first, others⟩ := Option.bind_eq_some_iff.mp run
  have atomic {k : Scalar} (here : next = ⟨[], .nothing (.atom k), []⟩) : False := by
    subst here
    cases ts with
    | nil =>
      cases others
      cases result
      cases holds
    | cons t ts =>
      rw [List.foldlM_cons, step_nothing] at others
      cases others
  cases t with
  | openList | openMap => rfl
  | text s => exact (atomic (Option.some.inj first).symm).elim
  | scalar k => exact (atomic (Option.some.inj first).symm).elim
  | _ => cases first

theorem bracket_of_token? {rest : List Char} (reads : token? cs = some (t, rest))
    (opens : t.opens = true) : ∃ more, cs = '[' :: more ∨ cs = '\x7b' :: more := by
  unfold token? at reads
  split at reads
  case h_1 => cases reads
  case h_2 more => exact ⟨more, .inl rfl⟩
  case h_4 more => exact ⟨more, .inr rfl⟩
  case h_8 =>
    obtain ⟨string, -, same⟩ := Option.map_eq_some_iff.mp reads
    cases same
    cases opens
  case h_9 =>
    split at reads
    · cases reads
      cases opens
    · split at reads
      · cases reads
      · obtain ⟨number, -, same⟩ := Option.map_eq_some_iff.mp reads
        cases same
        cases opens
  all_goals
    cases reads
    cases opens

theorem isBlank_of_trim (front : trim cs = c :: more) : isBlank c = false := by
  obtain ⟨gap, whole, -⟩ := exists_trim cs
  rw [front] at whole
  have first := List.head_dropWhile_not isBlank (l := cs) (by simp [whole])
  simpa [whole] using first

theorem isSpace_of_not_isBlank (ink : isBlank c = false) : isSpace c = false := by
  rw [← Bool.not_eq_true]
  intro space
  have blank : isBlank c = true := by
    simp only [isSpace, Bool.or_eq_true, beq_iff_eq] at space
    rcases space with ((rfl | rfl) | rfl) | rfl <;> rfl
  cases ink.symm.trans blank

theorem opensContainer_of_read? (reads : read? (strip s) = some v) (holds : kind.Holds v) :
    opensContainer (strip s) = true := by
  obtain ⟨ts, tokens, value⟩ := Option.bind_eq_some_iff.mp reads
  have stripped : (strip s).toList = trim s.toList := String.toList_ofList
  cases front : trim s.toList with
  | nil =>
    rw [stripped, front] at tokens
    cases tokens
    cases value
  | cons c cs =>
    have ink := isSpace_of_not_isBlank (isBlank_of_trim front)
    rw [stripped, front, tokens?, List.length_cons, tokensWithin,
      List.dropWhile_cons_of_neg (by simp [ink])] at tokens
    simp only [Option.bind_eq_bind, Option.bind_eq_some_iff] at tokens
    obtain ⟨⟨t, tail⟩, first, ts, -, same⟩ := tokens
    cases same
    obtain ⟨more, bracket⟩ := bracket_of_token? first (opens_of_ofTokens? value holds)
    rw [opensContainer, stripped, front]
    rcases bracket with bracket | bracket <;> cases bracket <;> rfl

namespace Annotation

variable {a : Annotation}

theorem Converts.not_given {name : String} (converts : a.Converts name s) :
    a.convert name (.text s) ≠ .ok (.given (.text s)) := by
  intro given
  cases converts with
  | refused fails => cases given.symm.trans fails
  | read reads => cases given.symm.trans reads

/-- Where containers are declared and text is not, text is refused or read as one of them, unless
text is declared for what is in the container: then text that opens none is passed on. -/
theorem converts_iff (declared : ∃ kind, a.Admits kind) (apart : ¬a.AdmitsText) (name : String) :
    ((∀ s, a.Converts name s) ↔ .text ∉ a.arguments) ∧
    (∀ s, a.Converts name s ↔ ¬(.text ∈ a.arguments ∧ opensContainer (strip s) = false)) ∧
    (∀ s, a.convert name (.text s) = .ok (.given (.text s)) ↔
      .text ∈ a.arguments ∧ opensContainer (strip s) = false) ∧
    ∀ s kind v, a.Admits kind → read? (strip s) = some v → kind.Holds v →
      ∃ own, a.convert name (.text s) = .ok (.read own v) := by
  obtain ⟨kind, admits⟩ := declared
  have mentions : a.mentionsText = true ↔ .text ∈ a.arguments := by
    rw [mentionsText_iff]
    exact or_iff_right fun text => apart (text ▸ .text)
  have passes (s : String) (loose : .text ∈ a.arguments ∧ opensContainer (strip s) = false) :
      a.convert name (.text s) = .ok (.given (.text s)) := by
    rw [convert_of_plain admits loose.2, if_pos (mentions.mpr loose.1)]
  have converts (s : String) (tight : ¬(.text ∈ a.arguments ∧ opensContainer (strip s) = false)) :
      a.Converts name s := by
    cases opens : opensContainer (strip s) with
    | true => exact converts_of_opens admits opens
    | false =>
      have silent : ¬a.mentionsText = true := fun text => tight ⟨mentions.mp text, opens⟩
      exact .refused ((convert_of_plain admits opens).trans (if_neg silent))
  refine ⟨⟨?_, ?_⟩, fun s => ⟨?_, converts s⟩, fun s => ⟨?_, passes s⟩, ?_⟩
  · intro all inside
    exact (all "").not_given (passes "" ⟨inside, rfl⟩)
  · exact fun absent s => converts s fun loose => absent loose.1
  · exact fun converted loose => converted.not_given (passes s loose)
  · intro given
    by_contra tight
    exact (converts s tight).not_given given
  · intro s kind v admits reads holds
    exact convert_of_holds admits reads holds (opensContainer_of_read? reads holds)

theorem converts_iff_optional : (Tool.optional Tool.textMap).Converts "values" "plain" ∧
    ∃ own, (Tool.optional Tool.textMap).convert "values" (.text " \x7b\x7d ") =
      .ok (.read own .emptyMap) := by
  have admits : (Tool.optional Tool.textMap).Admits .map :=
    .member (List.mem_cons_self ..) (.container .map _)
  have apart : ¬(Tool.optional Tool.textMap).AdmitsText := by
    rintro (- | inside)
    simp [Tool.textMap] at inside
  obtain ⟨all, -, -, reads⟩ := converts_iff ⟨.map, admits⟩ apart "values"
  refine ⟨all.mpr ?_ "plain", reads _ .map _ admits (by rfl) .map⟩
  simp [Tool.optional, Tool.textMap, arguments]

/-- Text for the keys of a map passes for the map. -/
theorem not_converts_textMap : Tool.textMap.Admits .map ∧ ¬Tool.textMap.AdmitsText ∧
    Tool.textMap.convert "values" (.text "plain") = .ok (.given (.text "plain")) ∧
    ¬Tool.textMap.Converts "values" "plain" := by
  have given : Tool.textMap.convert "values" (.text "plain") = .ok (.given (.text "plain")) := by rfl
  exact ⟨.container .map _, nofun, given, fun converts => converts.not_given given⟩

end Annotation

end Walkthrough
