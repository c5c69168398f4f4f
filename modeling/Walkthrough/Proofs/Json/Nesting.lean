import Walkthrough.Json.Reader
import Walkthrough.Proofs.Expression.Climbing
import Walkthrough.Proofs.Json.Quotation

/-! The brackets of JSON text. Each bracket token opens or closes one container of the reader, and
the reader is done as soon as the last one is closed; so in a list between its first and its last
bracket no more is closed than was opened. Without a backslash in the text the characters show it. -/
namespace Walkthrough.Json

open Expression (Climbs Quiet)

/-- A map of which a key comes next is not among the others. -/
def Expecting.inMap : Expecting → Bool
  | .key | .keyOrClose | .colon _ => true
  | _ => false

/-- The number of containers that are not closed yet. -/
def Reading.depth (r : Reading) : Nat := r.stack.length + if r.next.inMap then 1 else 0

def Reading.Ended (r : Reading) : Prop := ∃ v, r.next = .nothing v

/-- From one number of open containers a token leads to another. -/
def Token.Moves (t : Token) (n m : Nat) : Prop :=
  match t with
  | .openList | .openMap => m = n + 1
  | .closeList | .closeMap => n = m + 1
  | _ => m = n

variable {c : Char} {cs raw gap : List Char} {t : Token} {ts : List Token} {m n : Nat}
  {r r' : Reading} {stack : List Unfinished} {v : Data} {s : String}

/-! ## The reader -/

theorem depth_place (stack : List Unfinished) (v : Data) :
    (Reading.place stack v).depth = stack.length := by
  unfold Reading.place
  split <;> simp [Reading.depth, Expecting.inMap]

theorem ended_place (stack : List Unfinished) (v : Data) :
    (Reading.place stack v).Ended ↔ stack = [] := by
  unfold Reading.place
  split <;> simp [Reading.Ended]

/-- A value in its place ends the reading just when nothing is open any more. -/
theorem moves_place (moves : t.Moves n stack.length) (v : Data) :
    t.Moves n (Reading.place stack v).depth ∧
      ((Reading.place stack v).Ended ↔ (Reading.place stack v).depth = 0) := by
  rw [depth_place, ended_place, List.length_eq_zero_iff]
  exact ⟨moves, Iff.rfl⟩

theorem moves_beginValue (reads : Reading.beginValue stack t = some r') :
    t.Moves stack.length r'.depth ∧ (0 < stack.length → (r'.Ended ↔ r'.depth = 0)) := by
  unfold Reading.beginValue at reads
  split at reads
  case h_1 | h_2 =>
    cases reads
    simp [Token.Moves, Reading.depth, Expecting.inMap, Reading.Ended]
  case h_3 | h_4 =>
    cases reads
    apply And.imp_right fun ended _ => ended
    apply moves_place
    rfl
  case h_5 => cases reads

/-- A step inside of a container ends the reading just when it closes the last one. -/
theorem moves_step (reads : r.step t = some r') (inside : 0 < r.depth) :
    t.Moves r.depth r'.depth ∧ (r'.Ended ↔ r'.depth = 0) := by
  obtain ⟨stack, next, es⟩ := r
  unfold Reading.step at reads
  dsimp only at reads
  split at reads
  case h_1 | h_3 =>
    obtain ⟨moves, ended⟩ := moves_beginValue reads
    exact ⟨moves, ended inside⟩
  case h_2 | h_9 =>
    split at reads
    · cases reads
      apply moves_place
      rfl
    · cases reads
  case h_4 =>
    cases reads
    apply moves_place
    rfl
  case h_5 | h_6 | h_7 =>
    cases reads
    simp [Token.Moves, Reading.depth, Expecting.inMap, Reading.Ended]
  case h_8 =>
    split at reads
    · cases reads
      simp [Token.Moves, Reading.depth, Expecting.inMap, Reading.Ended]
    · cases reads
      simp [Token.Moves, Reading.depth, Expecting.inMap, Reading.Ended]
    · cases reads
  case h_10 =>
    split at reads
    · cases reads
      apply moves_place
      rfl
    · cases reads
  case h_11 => cases reads

theorem step_of_ended (ended : r.Ended) (t : Token) : r.step t = none := by
  obtain ⟨v, next⟩ := ended
  unfold Reading.step
  rw [next]

/-! ## The text of a token -/

theorem Plain.quiet (plain : Plain c) : Quiet c := by
  have all : ("+-.0123456789EINaefilnrstuy".toList.all fun c => decide (Quiet c)) = true := by decide
  simpa using List.all_eq_true.mp all c plain

theorem quiet_of_isSpace (space : isSpace c = true) : Quiet c := by
  simp only [isSpace, Bool.or_eq_true, beq_iff_eq] at space
  rcases space with ((rfl | rfl) | rfl) | rfl <;> decide

theorem blank_of_isSpace (space : isSpace c = true) : Text.isBlank c = true := by
  simp only [isSpace, Bool.or_eq_true, beq_iff_eq] at space
  rcases space with ((rfl | rfl) | rfl) | rfl <;> rfl

theorem exists_of_spelled {cs : List Char} (spelled : Spelled raw cs) (unescaped : '\\' ∉ raw) :
    ∃ inner, raw = inner ++ ['"'] ∧ '"' ∉ inner ∧ '\\' ∉ inner := by
  induction spelled with
  | close => exact ⟨[], rfl, by simp, by simp⟩
  | @plain c raw cs open_ literal rest ih =>
    obtain ⟨inner, rfl, unquoted, unslashed⟩ := ih (List.not_mem_of_not_mem_cons unescaped)
    exact ⟨c :: inner, rfl, List.not_mem_cons_of_ne_of_not_mem (Ne.symm open_) unquoted,
      List.not_mem_cons_of_ne_of_not_mem (Ne.symm literal) unslashed⟩
  | escape => simp at unescaped

theorem Written.climbs (written : Written t raw) (unescaped : '\\' ∉ raw) (moves : t.Moves n m) :
    Climbs n raw m := by
  cases written with
  | text spelled =>
    obtain ⟨inner, rfl, unquoted, unslashed⟩ :=
      exists_of_spelled spelled (List.not_mem_of_not_mem_cons unescaped)
    cases moves
    exact .string unquoted unslashed .nil
  | @mark t c listed =>
    simp only [marks, List.mem_cons, Prod.mk.injEq, List.not_mem_nil, or_false] at listed
    rcases listed with ⟨rfl, rfl⟩ | ⟨rfl, rfl⟩ | ⟨rfl, rfl⟩ | ⟨rfl, rfl⟩ | ⟨rfl, rfl⟩ | ⟨rfl, rfl⟩ <;>
      cases moves
    · exact .opening (.inl rfl) .nil
    · exact .closing (.inl rfl) .nil
    · exact .opening (.inr rfl) .nil
    · exact .closing (.inr rfl) .nil
    · exact .quiet (by decide) .nil
    · exact .quiet (by decide) .nil
  | scalar untold plain =>
    cases moves
    exact .of_quiet fun c inside => (plain c inside).quiet

theorem Token.Moves.pred (moves : t.Moves (n + 1) (m + 1)) : t.Moves n m := by
  cases t <;> simp only [Token.Moves] at moves ⊢ <;> omega

/-- A token behind which nothing is open any more is a closing bracket. -/
theorem Written.closes (written : Written t raw) (moves : t.Moves (n + 1) 0) :
    n = 0 ∧ ∃ closer, raw = [closer] ∧ (closer = ']' ∨ closer = '\x7d') := by
  cases written with
  | text | scalar => cases moves
  | @mark t c listed =>
    simp only [marks, List.mem_cons, Prod.mk.injEq, List.not_mem_nil, or_false] at listed
    rcases listed with ⟨rfl, rfl⟩ | ⟨rfl, rfl⟩ | ⟨rfl, rfl⟩ | ⟨rfl, rfl⟩ | ⟨rfl, rfl⟩ | ⟨rfl, rfl⟩ <;>
      cases moves
    · exact ⟨rfl, ']', rfl, .inl rfl⟩
    · exact ⟨rfl, '\x7d', rfl, .inr rfl⟩

/-! ## Lists -/

/-- The rest of a text whose reading ends behind its last bracket. -/
theorem Lexes.exists_closer (lexes : Lexes cs ts) (unescaped : '\\' ∉ cs)
    (run : ts.foldlM Reading.step r = some r') (ended : r'.Ended) (busy : ¬r.Ended)
    (inside : r.depth = n + 1) : ∃ inner closer gap, cs = inner ++ closer :: gap ∧
      Climbs n inner 0 ∧ (closer = ']' ∨ closer = '\x7d') ∧ ∀ c ∈ gap, isSpace c = true := by
  induction lexes generalizing r n with
  | nil =>
    cases run
    exact absurd ended busy
  | @cons gap raw tail t ts space written rest ih =>
    simp only [List.mem_append, not_or] at unescaped
    rw [List.foldlM_cons] at run
    obtain ⟨next, first, others⟩ := Option.bind_eq_some_iff.mp run
    obtain ⟨moves, done⟩ := moves_step first (by omega)
    have quiet : Climbs n gap n := .of_quiet fun c here => quiet_of_isSpace (space c here)
    rw [inside] at moves
    cases open_ : next.depth with
    | zero =>
      rw [open_] at moves
      obtain ⟨rfl, closer, rfl, bracket⟩ := written.closes moves
      cases rest with
      | nil space' => exact ⟨gap, closer, _, by simp, quiet, bracket, space'⟩
      | cons =>
        rw [List.foldlM_cons, step_of_ended (done.mpr open_)] at others
        cases others
    | succ k =>
      rw [open_] at moves
      have busy' : ¬next.Ended := fun shut => by simp [done.mp shut] at open_
      obtain ⟨inner, closer, gap', rfl, climbs, bracket, space'⟩ :=
        ih unescaped.2 others busy' open_
      refine ⟨gap ++ raw ++ inner, closer, gap', by simp, ?_, bracket, space'⟩
      exact (quiet.append (written.climbs unescaped.1.2 moves.pred)).append climbs

/-- A text that begins with a bracket goes on to the bracket that belongs to it. -/
theorem exists_of_read? (reads : read? s = some v) (front : s.toList.head? = some '[')
    (unescaped : '\\' ∉ s.toList) : ∃ inner closer gap, s.toList = '[' :: (inner ++ closer :: gap) ∧
      Climbs 0 inner 0 ∧ (closer = ']' ∨ closer = '\x7d') ∧ ∀ c ∈ gap, isSpace c = true := by
  obtain ⟨cs, text⟩ := List.head?_eq_some_iff.mp front
  rw [read?, text, Option.bind_eq_some_iff] at reads
  obtain ⟨ts, tokens, value⟩ := reads
  obtain ⟨r, run, result⟩ := Option.bind_eq_some_iff.mp value
  have first : tokens? ('[' :: cs) = (tokensWithin cs.length cs).map (.openList :: ·) := by
    have solid : ('[' :: cs).dropWhile isSpace = '[' :: cs := rfl
    have opens : token? ('[' :: cs) = some (.openList, cs) := rfl
    rw [tokens?, List.length_cons, tokensWithin, solid]
    simp only [opens, Option.bind_eq_bind, Option.bind_some]
    cases tokensWithin cs.length cs <;> rfl
  rw [first] at tokens
  obtain ⟨rest, behind, rfl⟩ := Option.map_eq_some_iff.mp tokens
  have ended : r.Ended := by
    unfold Reading.result? at result
    split at result
    · exact ⟨_, ‹_›⟩
    · cases result
  have busy : ¬Reading.Ended ⟨[.list []], .valueOrClose, []⟩ := by rintro ⟨_, ⟨⟩⟩
  obtain ⟨inner, closer, gap, rfl, climbs, bracket, space⟩ :=
    (lexes_of_tokensWithin behind).exists_closer (n := 0)
      (List.not_mem_of_not_mem_cons (text ▸ unescaped)) run ended busy rfl
  exact ⟨inner, closer, gap, text, climbs, bracket, space⟩

end Walkthrough.Json
