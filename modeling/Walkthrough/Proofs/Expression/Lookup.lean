import Walkthrough.Proofs.Expression.Printing
import Walkthrough.Proofs.Expression.Renaming
import Walkthrough.Proofs.Number.Front
import Walkthrough.Proofs.Text.Separation
import Walkthrough.Proofs.Value.Entries

/-! Two words with a point between them look up an entry: the first names a map of the context, the
second an entry of that map, and what is not there reads as null. -/
namespace Walkthrough

namespace Expression

/-- A character that is part of a word, whatever comes behind it. -/
def Steady (c : Char) : Prop := endsWord c none = false ∧ c ∉ pairStarts

instance (c : Char) : Decidable (Steady c) := inferInstanceAs (Decidable (_ ∧ _))

theorem steady_of_all {cs : List Char} (all : cs.all (fun c => decide (Steady c)) = true) :
    ∀ c ∈ cs, Steady c := by
  simpa using all

theorem Steady.endsWord_eq {c : Char} (steady : Steady c) (next : Option Char) :
    endsWord c next = false := by
  have alone := steady.1
  simp only [endsWord, pairKind?_of_other steady.2] at alone ⊢
  exact alone

theorem ink_of_goes {c : Char} {next : Option Char} (goes : endsWord c next = false) :
    Text.isBlank c = false := by
  simp only [endsWord, Bool.or_eq_false_iff] at goes
  exact goes.1.1.1

theorem wordLength_steady {cs : List Char} (ds : List Char) (steady : ∀ c ∈ cs, Steady c) :
    wordLength (cs ++ ds) = cs.length + wordLength ds := by
  induction cs with
  | nil => simp
  | cons c cs ih =>
    have later := ih fun d inside => steady d (List.mem_cons_of_mem c inside)
    have here := (steady c List.mem_cons_self).endsWord_eq (cs ++ ds).head?
    simp only [List.cons_append, wordLength, here, later, List.length_cons]
    simp; omega

theorem IsWord.wordLength_eq {s : String} (word : IsWord s) :
    wordLength s.toList = s.toList.length := by
  obtain ⟨c, cs, text, ink, continues⟩ := isWord_iff.mp word
  have goes : endsWord c cs.head? = false := by
    simp [endsWord, ink, continues.plain, continues.other, continues.alone]
  rw [text, wordLength, goes]
  simp [continues.whole]

theorem isWord_append {front s : String} (filled : front.toList ≠ [])
    (steady : ∀ c ∈ front.toList, Steady c) (word : IsWord s) : IsWord (front ++ s) := by
  obtain ⟨c, cs, text⟩ := List.exists_cons_of_ne_nil filled
  rw [text] at steady
  have whole := wordLength_steady s.toList
    fun d inside => steady d (List.mem_cons_of_mem c inside)
  have first := steady c List.mem_cons_self
  obtain ⟨⟨⟨ink, plain⟩, other⟩, -⟩ : ((Text.isBlank c = false ∧ isQuote c = false) ∧
      singleKind? c = none) ∧ pairKind? c none = none := by simpa [endsWord] using first.1
  have toList : (front ++ s).toList = c :: (cs ++ s.toList) := by simp [text]
  refine (isWord_cons toList).mpr ⟨ink, plain, pairKind?_of_other first.2 _, other, ?_⟩
  rw [whole, word.wordLength_eq, List.length_append]

end Expression

theorem Numeral.body?_of_front {c : Char} (digit : Text.digitValue? c = none)
    (other : c ∉ "+-.0I".toList) (cs : List Char) : body? (c :: cs) = none := by
  obtain ⟨plus, minus, point, zero, infinity⟩ :
      c ≠ '+' ∧ c ≠ '-' ∧ c ≠ '.' ∧ c ≠ '0' ∧ c ≠ 'I' := by simpa using other
  have sign : splitSign (c :: cs) = (false, c :: cs) := by simp [splitSign, plus, minus]
  have word : c :: cs ≠ infinityWord := fun same => infinity (List.cons.inj same).1
  have whole : unsigned? false (c :: cs) = none := by simp [unsigned?, digitRun, digit, point]
  have decimal : decimal? (c :: cs) = none := by
    simp only [decimal?, sign, if_neg word, whole]
  unfold body?
  split
  · rename_i same
    exact absurd (List.cons.inj same).1 zero
  · exact decimal

namespace Expression

theorem ink_of_wordLength {cs : List Char} (whole : wordLength cs = cs.length) :
    ∀ c ∈ cs, Text.isBlank c = false := by
  induction cs with
  | nil => exact nofun
  | cons c cs ih =>
    cases ends : endsWord c cs.head? with
    | true => simp [wordLength, ends] at whole
    | false =>
      simp only [wordLength, ends, List.length_cons] at whole
      have later := ih (by simpa using whole)
      exact List.forall_mem_cons.mpr ⟨ink_of_goes ends, later⟩

/-- A word that begins like neither a number nor a keyword is a path. -/
theorem parse_of_word {s : String} {c : Char} {cs : List Char} (word : IsWord s)
    (text : s.toList = c :: cs) (digit : Text.digitValue? c = none) (other : c ∉ "+-.0I".toList)
    (noKeyword : s ∉ ["true", "false", "null"]) : parse s = .ok (.path s) := by
  have noNumber : Numeral.parse? s.toList = .ok none := by
    refine Numeral.parse?_of_spelled?_none ?_
    rw [Numeral.spelled?, Numeral.trim_of_ink (ink_of_wordLength word.wordLength_eq), text]
    exact Numeral.body?_of_front digit other cs
  rw [(Reads.word word).parse_eq rfl, leaf_of_path word noNumber noKeyword]
  exact Expr.checked_of_readable rfl

theorem value_path (p : String) (context : Data) :
    (Expr.path p).value context = (resolve p context).map Value.normalize := by
  have erased : (context.labelled 0).1.relabel (fun _ => ()) = context := by
    rw [← Value.erase_eq_relabel, Value.erase_labelled]
  have resolved := resolve_relabel (fun _ => ()) p (context.labelled 0).1
  rw [erased] at resolved
  have run : (Expr.path p).value context =
      ((Expr.eval (.path p) (context.labelled 0).1).run (context.labelled 0).2).map
        fun q => settled q.1 := rfl
  rw [run, resolved, Expr.eval]
  cases resolve p (context.labelled 0).1 with
  | error e => rfl
  | ok v =>
    have same : settled v = (v.relabel fun _ => ()).normalize := by
      rw [settled, Value.erase_eq_relabel, Value.normalize_relabel]
    exact congrArg Except.ok same

def dotted (first second : String) : String := first ++ "." ++ second

/-- A name that, with a point and a word behind it, is a word and neither a number nor a keyword. -/
structure Leading (name : String) : Prop where
  begins : ∃ c cs, name.toList = c :: cs ∧ Text.digitValue? c = none ∧ c ∉ "+-.0I".toList
  steady : ∀ c ∈ name.toList, Steady c
  plain : '.' ∉ name.toList

theorem leading_replies : Leading "replies" where
  begins := ⟨'r', "eplies".toList, rfl, by decide, by decide⟩
  steady := steady_of_all (by decide)
  plain := by decide

theorem leading_responses : Leading "api_responses" where
  begins := ⟨'a', "pi_responses".toList, rfl, by decide, by decide⟩
  steady := steady_of_all (by decide)
  plain := by decide

section Dotted

variable {first second : String} {entries inner : Entries Unit}

theorem resolve_dotted (plain : '.' ∉ first.toList) (plain' : '.' ∉ second.toList)
    (there : entries.field? first = some (.ofEntries inner)) :
    resolve (dotted first second) (.ofEntries entries) = .ok ((inner.field? second).getD .missing) := by
  have parts : Text.split "." (dotted first second) = [first, second] := by
    have text : (dotted first second).toList = first.toList ++ (".".toList ++ second.toList) := by
      simp [dotted]
    have apart {s : String} (plain : '.' ∉ s.toList) : ∀ c ∈ s.toList, c ∉ ".".toList := by
      intro c inside point
      obtain rfl : c = '.' := by simpa using point
      exact plain inside
    rw [Text.split, text, Text.partsOf_append (by decide) (apart plain),
      Text.partsOf_of_apart (by decide) (apart plain')]
    simp
  rw [resolve, parts]
  simp [follow, member, Value.isNullish, Value.ofEntries, there, bind, Except.bind]

theorem parse_dotted (leading : Leading first) (word : IsWord second) :
    parse (dotted first second) = .ok (.path (dotted first second)) := by
  obtain ⟨⟨c, cs, text, digit, other⟩, steady, -⟩ := leading
  have pointed : (first ++ ".").toList = c :: (cs ++ ['.']) := by simp [text]
  have front : IsWord (dotted first second) := by
    refine isWord_append (by simp [pointed]) ?_ word
    rw [String.toList_append, List.forall_mem_append]
    have point : Steady '.' := by decide
    exact ⟨steady, List.forall_mem_singleton.mpr point⟩
  have whole : (dotted first second).toList = c :: (cs ++ '.' :: second.toList) := by
    simp [dotted, text]
  refine parse_of_word front whole digit other fun keyword => ?_
  have unpointed : ∀ s ∈ ["true", "false", "null"], '.' ∉ s.toList := by decide
  exact unpointed _ keyword (by simp [dotted])

/-- Two names look up an entry of a map of the context; it is null if it is not there. -/
theorem evaluate_dotted (leading : Leading first) (word : IsWord second)
    (plain : '.' ∉ second.toList) (there : entries.field? first = some (.ofEntries inner)) :
    evaluate (.text (dotted first second)) (.ofEntries entries) =
      ((inner.field? second).getD .null).normalize := by
  have filled : (Value.ofEntries entries).isVoid = false := by
    cases entries with
    | nil => cases there
    | cons => rfl
  have solid : Text.allBlank (dotted first second).toList = false := by
    obtain ⟨c, cs, text, -⟩ := leading.begins
    have ink := ink_of_goes (leading.steady c (by simp [text])).1
    simp [dotted, text, Text.allBlank, ink]
  have value := value_path (dotted first second) (.ofEntries entries)
  rw [resolve_dotted leading.plain plain there] at value
  simp only [evaluate, evaluateText, evaluateStrict, filled, solid, Bool.false_eq_true, if_false,
    parse_dotted leading word, value, Except.map, Except.mapError]
  cases inner.field? second <;> rfl

end Dotted

end Expression

end Walkthrough
