import Walkthrough.Proofs.Json.Scalars
import Walkthrough.Proofs.Number.Front
import Walkthrough.Proofs.Text.Parts
import Walkthrough.Workflow.MockPayload

/-! Fenced blocks in the text of a payload. A text with a fence is never left as it is. Where it is
JSON already, its fences are inside of strings, so the block that is cut out is a part of a string
and what it means, if anything, says nothing that a string of the text says with a backtick. -/
namespace Walkthrough

open Json Text

variable {t : String} {opening cs block : List Char} {v : Data} {ts : List Token}

theorem bare_of_isBlank {c : Char} (blank : isBlank c = true) : Bare c := by
  refine ⟨?_, ?_, ?_⟩ <;> rintro rfl <;> cases blank

theorem exists_of_blockAfter? (found : blockAfter? opening cs = some block) :
    ∃ before gap rest, cs = before ++ opening ++ gap ++ block ++ rest ∧
      ∀ c ∈ gap, isBlank c = true := by
  obtain ⟨⟨before, behind⟩, cut, rfl⟩ := Option.map_eq_some_iff.mp found
  have trimmed (inner : List Char) : ∃ gap rest, inner = gap ++ trim inner ++ rest ∧
      ∀ c ∈ gap, isBlank c = true := by
    obtain ⟨rest, whole, -⟩ := exists_trim inner
    refine ⟨inner.takeWhile isBlank, rest, ?_, fun c inside => List.mem_takeWhile_imp inside⟩
    rw [List.append_assoc, ← whole, List.takeWhile_append_dropWhile]
  have whole := eq_of_cutAt? cut
  dsimp only
  split
  · rename_i inside more cut'
    obtain ⟨gap, rest, spaced, blank⟩ := trimmed inside
    refine ⟨before, gap, rest ++ fence ++ more, ?_, blank⟩
    have inner := eq_of_cutAt? cut'
    rw [whole, inner]
    nth_rewrite 1 [spaced]
    simp only [List.append_assoc]
  · obtain ⟨gap, rest, spaced, blank⟩ := trimmed behind
    refine ⟨before, gap, rest, ?_, blank⟩
    rw [whole]
    nth_rewrite 1 [spaced]
    simp only [List.append_assoc]

theorem blockAfter?_eq_none : blockAfter? opening cs = none ↔ ¬opening <:+: cs := by
  rw [← occursIn_iff, occursIn, blockAfter?]
  simp

/-- What is taken for the block of a text with a fence stands in it, behind the fence. -/
theorem exists_of_fenced (fenced : fence <:+: t.toList) :
    ∃ before word rest, t.toList = before ++ fence ++ word ++ (jsonBlock t).toList ++ rest ∧
      ∀ c ∈ word, Bare c := by
  have marked (word : List Char) (bare : ∀ c ∈ word, Bare c) {block : List Char}
      (found : blockAfter? (fence ++ word) t.toList = some block) :
      ∃ before word rest, t.toList = before ++ fence ++ word ++ block ++ rest ∧
        ∀ c ∈ word, Bare c := by
    obtain ⟨before, gap, rest, whole, blank⟩ := exists_of_blockAfter? found
    refine ⟨before, word ++ gap, rest, by rw [whole]; simp only [List.append_assoc], ?_⟩
    exact List.forall_mem_append.mpr ⟨bare, fun c inside => bare_of_isBlank (blank c inside)⟩
  rw [jsonBlock]
  split
  · rename_i block _ found
    rw [String.toList_ofList]
    have bare : ("json".toList.all fun c => decide (Bare c)) = true := by decide
    exact marked _ (by simpa using bare) found
  · rename_i block _ found
    rw [String.toList_ofList]
    exact marked [] (by simp) found
  · rename_i unfenced
    exact absurd fenced (blockAfter?_eq_none.mp unfenced)

theorem jsonBlock_eq_iff : jsonBlock t = t ↔ ¬fence <:+: t.toList := by
  constructor
  · intro same fenced
    obtain ⟨before, word, rest, whole, -⟩ := exists_of_fenced fenced
    have sizes := congrArg List.length whole
    have three : fence.length = 3 := rfl
    rw [same] at sizes
    simp only [List.length_append] at sizes
    omega
  · intro unfenced
    have unmarked : ¬fence ++ "json".toList <:+: t.toList :=
      fun marked => unfenced ((List.prefix_append ..).isInfix.trans marked)
    rw [jsonBlock, blockAfter?_eq_none.mpr unmarked, blockAfter?_eq_none.mpr unfenced]

/-- A text that is JSON quotes its fences, and its block quotes none of them. -/
theorem quoted_of_fenced (tokens : tokens? t.toList = some ts) (fenced : fence <:+: t.toList)
    (reads : read? (jsonBlock t) = some v) :
    (∃ t ∈ ts, ∃ s, t.text? = some s ∧ '\x60' ∈ s.toList) ∧ ∀ s ∈ v.texts, '\x60' ∉ s.toList := by
  obtain ⟨before, word, rest, whole, bare⟩ := exists_of_fenced fenced
  obtain ⟨ts', tokens', value⟩ := Option.bind_eq_some_iff.mp reads
  have lexes := lexes_of_tokens? tokens
  constructor
  · refine lexes.exists_text (fenced.subset ?_)
    exact List.mem_cons_self ..
  · -- the fence has led the scanner into a string, and the block starts there
    have passes := lexes.run
    rw [whole, run_append, Option.bind_eq_some_iff] at passes
    obtain ⟨side, passes, -⟩ := passes
    rw [run_append, Option.bind_eq_some_iff] at passes
    obtain ⟨start, opens, passes⟩ := passes
    rw [run_append, Option.bind_eq_some_iff] at opens
    obtain ⟨ticked, ticks, opens⟩ := opens
    have split_ : before ++ fence = (before ++ ['\x60', '\x60']) ++ ['\x60'] := by
      rw [List.append_assoc]
      rfl
    rw [split_] at ticks
    obtain rfl := run_tick ticks
    rw [run_of_bare .inside nofun bare] at opens
    cases opens
    intro s told
    obtain ⟨t, written, told⟩ := exists_of_mem_texts value told
    exact (lexes_of_tokens? tokens').unticked passes t written s told

/-- A fence is lost on the way unless a key that is repeated gives up the text that quotes it. -/
theorem exists_lost (tokens : tokens? t.toList = some ts) (fenced : fence <:+: t.toList)
    (reads : read? (jsonBlock t) = some v) :
    ∃ t ∈ ts, ∃ s, t.text? = some s ∧ '\x60' ∈ s.toList ∧ s ∉ v.texts := by
  obtain ⟨⟨t, written, s, told, ticked⟩, unticked⟩ := quoted_of_fenced tokens fenced reads
  exact ⟨t, written, s, told, ticked, fun inside => unticked s inside ticked⟩

/-- Of a key that stands twice, the first string holds the fences and only the second one counts. -/
example : ∃ t v, jsonBlock t ≠ t ∧ read? t = some v ∧ read? (jsonBlock t) = some v :=
  ⟨"\x7b\",\":\"```json\x7b\",\":\":1,\",\":\":1\x7d```\",\",\":\":1,\",\":\":1\x7d",
    .ofEntries [(.text ",", .text ":1,"), (.text ":", .int 1)], by decide, rfl, rfl⟩

end Walkthrough
