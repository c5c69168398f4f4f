import Walkthrough.Proofs.Expression.Reading
import Walkthrough.Proofs.Number.Decimal

/-! Trees as text with as few parentheses as possible: a part stands in parentheses only if its rank
is below what its place asks for. The parser reads such a text as the tree it was printed from, unless
a whole number in it has too many digits; then it has no tree. -/
namespace Walkthrough.Expression

/-- The rank of a tree, the looser the lower. -/
def Expr.rank : Expr → Nat
  | .either .. => 0
  | .both .. => 1
  | .choose .. => 2
  | .compare c .. => c.rank
  | .concat _ => 5
  | .not _ | .exist _ => 6
  | .chain .. => 7
  | .literal _ | .unread _ | .path _ | .object _ => 8

def bracketed (needed : Bool) (s : String) : String := if needed then "(" ++ s ++ ")" else s

/-- How a scalar is written, if there is a literal for it. -/
def spelling : Scalar → String
  | .null => "null"
  | .bool b => if b then "true" else "false"
  | .number (.int n) => toString n
  | .text s => "'" ++ s ++ "'"
  | _ => ""

mutual

/-- The text of a tree at a place that asks for a rank. -/
def Expr.printAt (least : Nat) (e : Expr) : String :=
  bracketed (e.rank < least) <|
    match e with
    | .literal s => spelling s
    | .unread numeral => numeral
    | .path p => p
    | .either first rest => " || ".intercalate (first.printAt 1 :: printAll 1 rest)
    | .both first rest => " && ".intercalate (first.printAt 2 :: printAll 2 rest)
    | .choose condition yes no =>
      condition.printAt 2 ++ "?then(" ++ yes.printAt 2 ++ ", " ++ no.printAt 2 ++ ")"
    | .compare c left right =>
      left.printAt (c.rank + 1) ++ " " ++ String.ofList c.kind.sign ++ " " ++
        right.printAt (c.rank + 1)
    | .not e => "!" ++ e.printAt 6
    | .exist p => p ++ "??"
    | .concat parts => " + ".intercalate (printAll 6 parts)
    | .object properties => "\x7b" ++ ", ".intercalate (printProperties properties) ++ "\x7d"
    | .chain base stages => "?".intercalate (base.printAt 8 :: printStages stages)

def printAll (least : Nat) : List Expr → List String
  | [] => []
  | e :: rest => e.printAt least :: printAll least rest

def printProperties : List (String × Expr) → List String
  | [] => []
  | (name, e) :: rest => ("'" ++ name ++ "': " ++ e.printAt 0) :: printProperties rest

def printStages : List Stage → List String
  | [] => []
  | stage :: rest => stage.print :: printStages rest

def Stage.print : Stage → String
  | .string => "string"
  | .size => "size"
  | .hasContent => "has_content"
  | .join separator => "join('" ++ separator ++ "')"
  | .split separator => "split('" ++ separator ++ "')"
  | .map item body => "map(" ++ item ++ " -> " ++ body.printAt 0 ++ ")"
  | .unknown raw => raw

end

/-- The text of a whole tree. -/
def Expr.print (e : Expr) : String := e.printAt 0

mutual

/-- The numbers among the literals of a tree. -/
def Expr.numbers : Expr → List Number
  | .literal (.number n) => [n]
  | .literal _ | .unread _ | .path _ | .exist _ => []
  | .either first rest | .both first rest => first.numbers ++ numbersAll rest
  | .choose condition yes no => condition.numbers ++ yes.numbers ++ no.numbers
  | .compare _ left right => left.numbers ++ right.numbers
  | .not e => e.numbers
  | .concat parts => numbersAll parts
  | .object properties => numbersOfProperties properties
  | .chain base stages => base.numbers ++ numbersOfStages stages

def numbersAll : List Expr → List Number
  | [] => []
  | e :: rest => e.numbers ++ numbersAll rest

def numbersOfProperties : List (String × Expr) → List Number
  | [] => []
  | (_, e) :: rest => e.numbers ++ numbersOfProperties rest

def numbersOfStages : List Stage → List Number
  | [] => []
  | stage :: rest => stage.numbers ++ numbersOfStages rest

def Stage.numbers : Stage → List Number
  | .map _ body => body.numbers
  | _ => []

end

/-- All whole numbers of a tree can be read. -/
def Expr.Modest (e : Expr) : Prop := ∀ n ∈ e.numbers, n.digits ≤ digitLimit

instance (e : Expr) : Decidable e.Modest := inferInstanceAs (Decidable (∀ n ∈ e.numbers, _))

/-- The literal that is read where this one is written. -/
def rereadScalar : Scalar → Expr
  | .number n => if digitLimit < n.digits then .unread (spelling (.number n)) else .literal (.number n)
  | s => .literal s

mutual

/-- The tree that is read where this one is written: whole numbers with too many digits are not. -/
def Expr.reread : Expr → Expr
  | .literal s => rereadScalar s
  | .unread numeral => .unread numeral
  | .path p => .path p
  | .either first rest => .either first.reread (rereadAll rest)
  | .both first rest => .both first.reread (rereadAll rest)
  | .choose condition yes no => .choose condition.reread yes.reread no.reread
  | .compare c left right => .compare c left.reread right.reread
  | .not e => .not e.reread
  | .exist p => .exist p
  | .concat parts => .concat (rereadAll parts)
  | .object properties => .object (rereadProperties properties)
  | .chain base stages => .chain base.reread (rereadStages stages)

def rereadAll : List Expr → List Expr
  | [] => []
  | e :: rest => e.reread :: rereadAll rest

def rereadProperties : List (String × Expr) → List (String × Expr)
  | [] => []
  | (name, e) :: rest => (name, e.reread) :: rereadProperties rest

def rereadStages : List Stage → List Stage
  | [] => []
  | stage :: rest => stage.reread :: rereadStages rest

def Stage.reread : Stage → Stage
  | .map item body => .map item body.reread
  | stage => stage

end

/-- Stages that can be written: with a quotable separator, or over a variable that is a word. -/
def Stage.Printable : Stage → Prop
  | .string | .size | .hasContent => True
  | .join separator | .split separator => Quotable separator
  | .map item _ => IsWord item
  | .unknown _ => False

/-- Trees that can be written: operators join two parts or more, chains have stages, texts can
stand between single quotes, and paths are words that mean nothing else. -/
inductive Printable : Expr → Prop where
  | null : Printable (.literal .null)
  | bool (b : Bool) : Printable (.literal (.bool b))
  | int (n : Int) : Printable (.literal (.number (.int n)))
  | text {s : String} (quotable : Quotable s) : Printable (.literal (.text s))
  | path {p : String} (word : IsWord p) (noNumber : Numeral.parse? p.toList = .ok none)
      (noKeyword : p ∉ ["true", "false", "null"]) : Printable (.path p)
  | either {first : Expr} {rest : List Expr} (several : rest ≠ []) (head : Printable first)
      (tail : ∀ e ∈ rest, Printable e) : Printable (.either first rest)
  | both {first : Expr} {rest : List Expr} (several : rest ≠ []) (head : Printable first)
      (tail : ∀ e ∈ rest, Printable e) : Printable (.both first rest)
  | choose {condition yes no : Expr} (given : Printable condition) (taken : Printable yes)
      (other : Printable no) : Printable (.choose condition yes no)
  | compare (c : Comparison) {left right : Expr} (first : Printable left)
      (second : Printable right) : Printable (.compare c left right)
  | not {e : Expr} (operand : Printable e) : Printable (.not e)
  | exist {p : String} (word : IsWord p) : Printable (.exist p)
  | concat {parts : List Expr} (several : 2 ≤ parts.length)
      (all : ∀ e ∈ parts, Printable e) : Printable (.concat parts)
  | object {properties : List (String × Expr)} (names : ∀ p ∈ properties, Quotable p.1)
      (values : ∀ p ∈ properties, Printable p.2) : Printable (.object properties)
  | chain {base : Expr} {stages : List Stage} (some : stages ≠ []) (first : Printable base)
      (plain : ∀ s ∈ stages, s.Printable)
      (bodies : ∀ item body, .map item body ∈ stages → Printable body) :
      Printable (.chain base stages)

theorem Expr.printAt_eq (least : Nat) (e : Expr) :
    e.printAt least = bracketed (e.rank < least) e.print := by
  cases e <;> rfl

theorem printAll_eq_map (least : Nat) (es : List Expr) :
    printAll least es = es.map (Expr.printAt least) := by
  induction es with
  | nil => rfl
  | cons e rest ih => exact congrArg (e.printAt least :: ·) ih

theorem printProperties_eq_map (properties : List (String × Expr)) :
    printProperties properties = properties.map fun p => "'" ++ p.1 ++ "': " ++ p.2.printAt 0 := by
  induction properties with
  | nil => rfl
  | cons p rest ih => exact congrArg (("'" ++ p.1 ++ "': " ++ p.2.printAt 0) :: ·) ih

theorem printStages_eq_map (stages : List Stage) : printStages stages = stages.map Stage.print := by
  induction stages with
  | nil => rfl
  | cons s rest ih => exact congrArg (s.print :: ·) ih

section Texts

variable (condition yes no left right base e : Expr) (parts rest : List Expr) (p item : String)

@[simp]
theorem print_literal (s : Scalar) : (Expr.literal s).print = spelling s := rfl

@[simp]
theorem print_path : (Expr.path p).print = p := rfl

@[simp]
theorem print_either : (Expr.either e rest).print =
    " || ".intercalate (e.printAt 1 :: rest.map (Expr.printAt 1)) :=
  printAll_eq_map 1 rest ▸ rfl

@[simp]
theorem print_both : (Expr.both e rest).print =
    " && ".intercalate (e.printAt 2 :: rest.map (Expr.printAt 2)) :=
  printAll_eq_map 2 rest ▸ rfl

@[simp]
theorem print_choose : (Expr.choose condition yes no).print =
    condition.printAt 2 ++ "?then(" ++ yes.printAt 2 ++ ", " ++ no.printAt 2 ++ ")" := rfl

@[simp]
theorem print_compare (c : Comparison) : (Expr.compare c left right).print =
    left.printAt (c.rank + 1) ++ " " ++ String.ofList c.kind.sign ++ " " ++
      right.printAt (c.rank + 1) := rfl

@[simp]
theorem print_not : (Expr.not e).print = "!" ++ e.printAt 6 := rfl

@[simp]
theorem print_exist : (Expr.exist p).print = p ++ "??" := rfl

@[simp]
theorem print_concat : (Expr.concat parts).print =
    " + ".intercalate (parts.map (Expr.printAt 6)) :=
  printAll_eq_map 6 parts ▸ rfl

@[simp]
theorem print_object (properties : List (String × Expr)) : (Expr.object properties).print =
    "\x7b" ++ ", ".intercalate (properties.map fun p => "'" ++ p.1 ++ "': " ++ p.2.printAt 0) ++
      "\x7d" :=
  printProperties_eq_map properties ▸ rfl

@[simp]
theorem print_chain (stages : List Stage) : (Expr.chain base stages).print =
    "?".intercalate (base.printAt 8 :: stages.map Stage.print) :=
  printStages_eq_map stages ▸ rfl

@[simp]
theorem print_join (separator : String) :
    (Stage.join separator).print = "join('" ++ separator ++ "')" := rfl

@[simp]
theorem print_split (separator : String) :
    (Stage.split separator).print = "split('" ++ separator ++ "')" := rfl

@[simp]
theorem print_map : (Stage.map item e).print = "map(" ++ item ++ " -> " ++ e.printAt 0 ++ ")" := rfl

end Texts

theorem intercalate_cons {α : Type} (separator first : List α) (rest : List (List α)) :
    separator.intercalate (first :: rest) = first ++ rest.flatMap (separator ++ ·) := by
  induction rest generalizing first with
  | nil => simp
  | cons second rest ih => simp [List.intercalate_cons_cons, ih]

theorem toList_print_either (first : Expr) (rest : List Expr) : (Expr.either first rest).print.toList =
    (first.printAt 1).toList ++ rest.flatMap fun e => spaced .or (e.printAt 1).toList := by
  simp [intercalate_cons, List.flatMap_map, spaced, Kind.sign]

theorem toList_print_both (first : Expr) (rest : List Expr) : (Expr.both first rest).print.toList =
    (first.printAt 2).toList ++ rest.flatMap fun e => spaced .and (e.printAt 2).toList := by
  simp [intercalate_cons, List.flatMap_map, spaced, Kind.sign]

theorem toList_print_concat (first : Expr) (rest : List Expr) :
    (Expr.concat (first :: rest)).print.toList =
      (first.printAt 6).toList ++ rest.flatMap fun e => spaced .plus (e.printAt 6).toList := by
  simp [intercalate_cons, List.flatMap_map, spaced, Kind.sign]

theorem toList_print_object (properties : List (String × Expr)) :
    (Expr.object properties).print.toList = '\x7b' :: (listed (properties.map fun p =>
      quoted p.1 ++ ([':', ' '] ++ (p.2.printAt 0).toList)) ++ ['\x7d']) := by
  cases properties <;> simp [intercalate_cons, listed, List.flatMap_map, quoted]

theorem toList_print_chain (base : Expr) (stages : List Stage) :
    (Expr.chain base stages).print.toList =
      (base.printAt 8).toList ++ stages.flatMap fun s => '?' :: s.print.toList := by
  simp [intercalate_cons, List.flatMap_map]

theorem Reads.bracketed {m n : Nat} {s : String} {e : Expr} (reads : Reads n s.toList e) (le : m ≤ 8) :
    Reads m (bracketed (n < m) s).toList e := by
  unfold Expression.bracketed
  split
  · have inside : ("(" ++ s ++ ")").toList = '(' :: s.toList ++ [')'] := by simp
    rw [inside]
    exact reads.parens.mono le
  · rename_i enough
    exact reads.mono (by simpa using enough)

theorem reads_printAt {least : Nat} {e : Expr} (reads : Reads e.rank e.print.toList e.reread)
    (le : least ≤ 8) : Reads least (e.printAt least).toList e.reread := by
  rw [Expr.printAt_eq]
  exact reads.bracketed le

theorem unquoted?_of_word {s : String} (word : IsWord s) : unquoted? s.toList = none := by
  obtain ⟨c, cs, text, -, continues⟩ := isWord_iff.mp word
  cases cs with
  | nil => simp [text, unquoted?]
  | cons d cs => simp [text, unquoted?, continues.plain]

theorem leaf_of_word {s : String} (word : IsWord s) (noNumber : Numeral.parse? s.toList = .ok none) :
    leaf s.toList =
      if s = "true" then .literal (.bool true)
      else if s = "false" then .literal (.bool false)
      else if s = "null" then .literal .null
      else .path s := by
  simp only [leaf, unquoted?_of_word word, noNumber, String.toList_inj, String.ofList_toList]

theorem leaf_of_path {s : String} (word : IsWord s) (noNumber : Numeral.parse? s.toList = .ok none)
    (noKeyword : s ∉ ["true", "false", "null"]) : leaf s.toList = .path s := by
  simp only [List.mem_cons, List.not_mem_nil, or_false, not_or] at noKeyword
  rw [leaf_of_word word noNumber, if_neg noKeyword.1, if_neg noKeyword.2.1, if_neg noKeyword.2.2]

theorem leaf_of_number {s : String} {n : Number} (word : IsWord s)
    (number : Numeral.parse? s.toList = .ok (some n)) : leaf s.toList = .literal (.number n) := by
  simp [leaf, unquoted?_of_word word, number]

/-- A whole number is read from its digits, as long as they are not too many. -/
theorem leaf_toString {n : Int} (word : IsWord (toString n)) :
    leaf (toString n).toList = rereadScalar (.number (.int n)) := by
  simp only [leaf, unquoted?_of_word word, Numeral.parse?_toString, unlessTooMany, rereadScalar]
  by_cases many : digitLimit < (Number.int n).digits
  · simp [many, spelling]
  · simp [many]

section Reread

variable (condition yes no left right base e : Expr) (parts rest : List Expr) (p item : String)
  (properties : List (String × Expr)) (stages : List Stage)

theorem rereadAll_eq_map : rereadAll rest = rest.map Expr.reread := by
  induction rest with
  | nil => rfl
  | cons e rest ih => exact congrArg (e.reread :: ·) ih

theorem reread_either : (Expr.either e rest).reread = .either e.reread (rest.map Expr.reread) :=
  rereadAll_eq_map rest ▸ rfl

theorem reread_both : (Expr.both e rest).reread = .both e.reread (rest.map Expr.reread) :=
  rereadAll_eq_map rest ▸ rfl

theorem reread_concat : (Expr.concat parts).reread = .concat (parts.map Expr.reread) :=
  rereadAll_eq_map parts ▸ rfl

theorem reread_object : (Expr.object properties).reread =
    .object (properties.map fun p => (p.1, p.2.reread)) := by
  have same : rereadProperties properties = properties.map fun p => (p.1, p.2.reread) := by
    induction properties with
    | nil => rfl
    | cons p rest ih => exact congrArg ((p.1, p.2.reread) :: ·) ih
  exact same ▸ rfl

theorem reread_chain : (Expr.chain base stages).reread =
    .chain base.reread (stages.map Stage.reread) := by
  have same : rereadStages stages = stages.map Stage.reread := by
    induction stages with
    | nil => rfl
    | cons s rest ih => exact congrArg (s.reread :: ·) ih
  exact same ▸ rfl

end Reread

section Readable

variable {condition yes no left right base e : Expr} {parts rest : List Expr}
  {properties : List (String × Expr)} {stages : List Stage}

theorem allReadable_iff : allReadable rest = true ↔ ∀ e ∈ rest, e.readable = true := by
  rw [allReadable_eq_all, List.all_eq_true]

theorem propertiesReadable_iff :
    propertiesReadable properties = true ↔ ∀ p ∈ properties, p.2.readable = true := by
  rw [propertiesReadable_eq_all, List.all_eq_true]

theorem stagesReadable_iff : stagesReadable stages = true ↔ ∀ s ∈ stages, s.readable = true := by
  rw [stagesReadable_eq_all, List.all_eq_true]

theorem mem_numbersAll {n : Number} : n ∈ numbersAll rest ↔ ∃ e ∈ rest, n ∈ e.numbers := by
  induction rest with
  | nil => simp [numbersAll]
  | cons e rest ih => simp [numbersAll, ih]

theorem mem_numbersOfProperties {n : Number} :
    n ∈ numbersOfProperties properties ↔ ∃ p ∈ properties, n ∈ p.2.numbers := by
  induction properties with
  | nil => simp [numbersOfProperties]
  | cons p rest ih => simp [numbersOfProperties, ih]

theorem mem_numbersOfStages {n : Number} :
    n ∈ numbersOfStages stages ↔ ∃ s ∈ stages, n ∈ s.numbers := by
  induction stages with
  | nil => simp [numbersOfStages]
  | cons s rest ih => simp [numbersOfStages, ih]

end Readable

/-- The characters with which operators of two characters begin. -/
def pairStarts : List Char := "|&=!><?-$".toList

theorem pairKind?_of_other {c : Char} (other : c ∉ pairStarts) (next : Option Char) :
    pairKind? c next = none := by
  unfold pairKind?
  split <;> first | rfl | exact absurd (by decide) other

section Figures

open Numeral

theorem endsWord_of_figure {c : Char} {next : Option Char} (figure : c ∈ figures)
    (after : ∀ d ∈ next, d ∈ figures) : endsWord c next = false := by
  have all : figures.all (fun c => !endsWord c none && figures.all fun d => !endsWord c (some d)) = true := by
    decide +kernel
  have each := List.all_eq_true.mp all c figure
  rw [Bool.and_eq_true, Bool.not_eq_true'] at each
  cases next with
  | none => exact each.1
  | some d => simpa using List.all_eq_true.mp each.2 d (after d rfl)

theorem wordLength_of_figures {cs : List Char} (all : ∀ c ∈ cs, c ∈ figures) :
    wordLength cs = cs.length := by
  induction cs with
  | nil => rfl
  | cons c cs ih =>
    obtain ⟨first, later⟩ := List.forall_mem_cons.mp all
    have on := endsWord_of_figure first fun d inside => later d (List.mem_of_mem_head? inside)
    simp [wordLength, on, ih later]

theorem isWord_of_figures {s : String} (some : s.toList ≠ []) (all : ∀ c ∈ s.toList, c ∈ figures) :
    IsWord s := by
  obtain ⟨c, cs, text⟩ := List.exists_cons_of_ne_nil some
  rw [text] at all
  obtain ⟨first, later⟩ := List.forall_mem_cons.mp all
  have on := endsWord_of_figure first fun d inside => later d (List.mem_of_mem_head? inside)
  simp only [endsWord, Bool.or_eq_false_iff, Option.isSome_eq_false_iff, Option.isNone_iff_eq_none] at on
  obtain ⟨⟨⟨ink, plain⟩, other⟩, alone⟩ := on
  exact (isWord_cons text).mpr ⟨ink, plain, alone, other, wordLength_of_figures later⟩

theorem toString_ne_nil (n : Int) : (toString n).toList ≠ [] := by
  cases n with
  | ofNat n => exact Nat.toList_repr ▸ Nat.toDigits_ne_nil
  | negSucc n => rw [toList_negSucc]; exact List.cons_ne_nil _ _

theorem isWord_toString (n : Int) : IsWord (toString n) :=
  isWord_of_figures (toString_ne_nil n) fun _ => mem_figures_of_whole

end Figures

theorem isWord_paddedOne : IsWord (String.ofList Numeral.paddedOne) := by
  refine isWord_of_figures (by simp [Numeral.paddedOne]) fun c inside => ?_
  rw [String.toList_ofList] at inside
  exact Numeral.mem_figures_of_digit (Numeral.mem_paddedOne inside)

theorem leaf_paddedOne : leaf Numeral.paddedOne = .unread (String.ofList Numeral.paddedOne) := by
  have plain := unquoted?_of_word isWord_paddedOne
  rw [String.toList_ofList] at plain
  simp only [leaf, plain, Numeral.parse?_paddedOne]

theorem Reads.leaf {s : String} {e : Expr} (word : IsWord s) (same : leaf s.toList = e) :
    Reads 8 s.toList e := same ▸ Reads.word word

theorem reads_literal {s : Scalar} (printable : Printable (.literal s)) :
    Reads 8 (Expr.literal s).print.toList (rereadScalar s) := by
  rw [print_literal]
  cases printable with
  | null =>
    have word : IsWord "null" := by decide
    exact .leaf word (leaf_of_word word (by decide))
  | bool b =>
    cases b with
    | true =>
      have word : IsWord "true" := by decide
      exact .leaf word (leaf_of_word word (by decide))
    | false =>
      have word : IsWord "false" := by decide
      exact .leaf word (leaf_of_word word (by decide))
  | int n =>
    have word := isWord_toString n
    exact .leaf word (leaf_toString word)
  | text quotable => simpa [spelling, quoted, rereadScalar] using Reads.text quotable

theorem reads_stage {s : Stage} (printable : s.Printable)
    (body : ∀ item e, s = .map item e → Reads 0 (e.printAt 0).toList e.reread) :
    ReadsStage s.print.toList s.reread := by
  cases s with
  | string => exact .string
  | size => exact .size
  | hasContent => exact .hasContent
  | join separator =>
    have reads := ReadsStage.join (s := separator) printable
    simpa [quoted, Stage.reread] using reads
  | split separator =>
    have reads := ReadsStage.split (s := separator) printable
    simpa [quoted, Stage.reread] using reads
  | map item e =>
    have reads := ReadsStage.map printable (body item e rfl)
    simpa [spaced, Kind.sign, Stage.reread] using reads
  | unknown raw => exact absurd printable id

/-- A printed tree is read at its rank as that tree, but for the numbers that cannot be read. -/
theorem Printable.reads {e : Expr} (printable : Printable e) :
    Reads e.rank e.print.toList e.reread := by
  -- each case is the rule of its construct; the rank its place asks for decides on parentheses
  induction printable with
  | null => exact reads_literal .null
  | bool b => exact reads_literal (.bool b)
  | int n => exact reads_literal (.int n)
  | text quotable => exact reads_literal (.text quotable)
  | path word noNumber noKeyword =>
    rw [print_path]
    exact .leaf word (leaf_of_path word noNumber noKeyword)
  | either several _ _ head tail =>
    rw [toList_print_either, reread_either]
    exact Reads.either several (reads_printAt head (by decide))
      fun e inside => reads_printAt (tail e inside) (by decide)
  | both several _ _ head tail =>
    rw [toList_print_both, reread_both]
    exact Reads.both several (reads_printAt head (by decide))
      fun e inside => reads_printAt (tail e inside) (by decide)
  | choose _ _ _ given taken other =>
    have reads := Reads.choose (reads_printAt given (by decide)) (reads_printAt taken (by decide))
      (reads_printAt other (by decide))
    simpa [Expr.rank, Expr.reread] using reads
  | compare c _ _ first second =>
    have le : c.rank + 1 ≤ 8 := by cases c <;> simp [Comparison.rank]
    have reads := Reads.compare c (reads_printAt first le) (reads_printAt second le)
    simpa [Expr.rank, Expr.reread, spaced] using reads
  | not _ operand =>
    have reads := Reads.not (reads_printAt operand (by decide))
    simpa [Expr.rank, Expr.reread] using reads
  | exist word =>
    have reads := Reads.exist word
    simpa [Expr.rank, Expr.reread] using reads
  | @concat parts several _ all =>
    obtain ⟨first, second, rest, rfl⟩ : ∃ first second rest, parts = first :: second :: rest := by
      match parts, several with
      | first :: second :: rest, _ => exact ⟨first, second, rest, rfl⟩
    rw [toList_print_concat, reread_concat]
    exact Reads.concat (List.cons_ne_nil _ _) (reads_printAt (all first List.mem_cons_self) (by decide))
      fun e inside => reads_printAt (all e (List.mem_cons_of_mem first inside)) (by decide)
  | object names _ values =>
    rw [toList_print_object, reread_object]
    exact Reads.object names fun p inside => reads_printAt (values p inside) (Nat.zero_le 8)
  | chain some _ plain _ first bodies =>
    rw [toList_print_chain, reread_chain]
    exact Reads.chain some (reads_printAt first (by decide)) fun s inside =>
      reads_stage (plain s inside) fun item e same =>
        reads_printAt (bodies item e (same ▸ inside)) (Nat.zero_le 8)

section Modest

variable {condition yes no left right base e : Expr} {parts rest : List Expr}
  {properties : List (String × Expr)} {stages : List Stage}

def Stage.Modest (s : Stage) : Prop := ∀ n ∈ s.numbers, n.digits ≤ digitLimit

theorem modest_either : (Expr.either e rest).Modest ↔ e.Modest ∧ ∀ x ∈ rest, x.Modest := by
  simp only [Expr.Modest, Expr.numbers, List.mem_append, mem_numbersAll]
  grind

theorem modest_both : (Expr.both e rest).Modest ↔ e.Modest ∧ ∀ x ∈ rest, x.Modest := modest_either

theorem modest_choose : (Expr.choose condition yes no).Modest ↔
    condition.Modest ∧ yes.Modest ∧ no.Modest := by
  simp only [Expr.Modest, Expr.numbers, List.mem_append]
  grind

theorem modest_compare {c : Comparison} :
    (Expr.compare c left right).Modest ↔ left.Modest ∧ right.Modest :=
  List.forall_mem_append

theorem modest_concat : (Expr.concat parts).Modest ↔ ∀ x ∈ parts, x.Modest := by
  simp only [Expr.Modest, Expr.numbers, mem_numbersAll]
  grind

theorem modest_object : (Expr.object properties).Modest ↔ ∀ p ∈ properties, p.2.Modest := by
  simp only [Expr.Modest, Expr.numbers, mem_numbersOfProperties]
  exact ⟨fun all p inside n found => all n ⟨p, inside, found⟩,
    fun each n ⟨p, inside, found⟩ => each p inside n found⟩

theorem modest_chain : (Expr.chain base stages).Modest ↔ base.Modest ∧ ∀ s ∈ stages, s.Modest := by
  simp only [Expr.Modest, Stage.Modest, Expr.numbers, List.mem_append, mem_numbersOfStages]
  grind

/-- A printed tree is read in full just when none of its whole numbers has too many digits. -/
theorem Printable.readable_reread (printable : Printable e) : e.reread.readable = true ↔ e.Modest := by
  induction printable with
  | null | bool | text | path | exist =>
    simp [Expr.reread, rereadScalar, Expr.readable, Expr.Modest, Expr.numbers]
  | int n =>
    simp only [Expr.reread, rereadScalar, Expr.Modest, Expr.numbers, List.forall_mem_singleton]
    split
    · simpa [Expr.readable]
    · simpa [Expr.readable] using Nat.le_of_not_lt ‹_›
  | either _ _ _ head tail =>
    rw [reread_either, Expr.readable, Bool.and_eq_true, allReadable_iff, List.forall_mem_map, head,
      modest_either]
    exact and_congr_right' (forall₂_congr tail)
  | both _ _ _ head tail =>
    rw [reread_both, Expr.readable, Bool.and_eq_true, allReadable_iff, List.forall_mem_map, head,
      modest_both]
    exact and_congr_right' (forall₂_congr tail)
  | choose _ _ _ given taken other =>
    rw [Expr.reread, Expr.readable, Bool.and_eq_true, Bool.and_eq_true, given, taken, other,
      modest_choose, and_assoc]
  | compare c _ _ first second =>
    rw [Expr.reread, Expr.readable, Bool.and_eq_true, first, second, modest_compare]
  | not _ operand => exact operand
  | concat _ _ all =>
    rw [reread_concat, Expr.readable, allReadable_iff, List.forall_mem_map, modest_concat]
    exact forall₂_congr all
  | object _ _ values =>
    rw [reread_object, Expr.readable, propertiesReadable_iff, List.forall_mem_map, modest_object]
    exact forall₂_congr values
  | chain _ _ _ _ first bodies =>
    rw [reread_chain, Expr.readable, Bool.and_eq_true, stagesReadable_iff, List.forall_mem_map, first,
      modest_chain]
    refine and_congr_right' (forall₂_congr fun s inside => ?_)
    cases s with
    | map item body => exact bodies item body inside
    | _ => simp [Stage.reread, Stage.readable, Stage.Modest, Stage.numbers]

theorem map_eq_self {α : Type} {f : α → α} {xs : List α} (same : ∀ x ∈ xs, f x = x) : xs.map f = xs :=
  (List.map_congr_left same).trans (List.map_id xs)

/-- A tree of modest numbers is read as it is. -/
theorem Printable.reread_eq (printable : Printable e) (modest : e.Modest) : e.reread = e := by
  induction printable with
  | null | bool | text | path | exist => rfl
  | int n =>
    have few : (Number.int n).digits ≤ digitLimit := modest _ List.mem_cons_self
    exact if_neg (Nat.not_lt.mpr few)
  | either _ _ _ head tail =>
    obtain ⟨first, others⟩ := modest_either.mp modest
    rw [reread_either, head first, map_eq_self fun x inside => tail x inside (others x inside)]
  | both _ _ _ head tail =>
    obtain ⟨first, others⟩ := modest_both.mp modest
    rw [reread_both, head first, map_eq_self fun x inside => tail x inside (others x inside)]
  | choose _ _ _ given taken other =>
    obtain ⟨condition, yes, no⟩ := modest_choose.mp modest
    rw [Expr.reread, given condition, taken yes, other no]
  | compare c _ _ first second =>
    obtain ⟨left, right⟩ := modest_compare.mp modest
    rw [Expr.reread, first left, second right]
  | not _ operand => rw [Expr.reread, operand modest]
  | concat _ _ all =>
    rw [reread_concat, map_eq_self fun x inside => all x inside (modest_concat.mp modest x inside)]
  | object _ _ values =>
    have each := modest_object.mp modest
    rw [reread_object, map_eq_self fun p inside => by rw [values p inside (each p inside)]]
  | chain _ _ _ _ first bodies =>
    obtain ⟨base, stages⟩ := modest_chain.mp modest
    rw [reread_chain, first base, map_eq_self fun s inside => ?_]
    cases s with
    | map item body => exact congrArg (Stage.map item) (bodies item body inside (stages _ inside))
    | _ => rfl

end Modest

theorem Printable.parse_eq {e : Expr} (printable : Printable e) : parse e.print = e.reread.checked :=
  printable.reads.parse_eq rfl

theorem Printable.parse_of_vast {e : Expr} (printable : Printable e) (vast : ¬e.Modest) :
    parse e.print = .error (.fault .tooManyDigits) := by
  have unreadable : e.reread.readable = false :=
    Bool.eq_false_iff.mpr fun readable => vast (printable.readable_reread.mp readable)
  rw [printable.parse_eq, Expr.checked_of_unreadable unreadable]

/-- The parser undoes printing, unless a whole number in the tree has too many digits; then the
printed text has no tree. -/
theorem parse_print {e : Expr} (printable : Printable e) :
    parse e.print =
      if ∀ n ∈ e.numbers, n.digits ≤ digitLimit then .ok e
      else .error (.fault .tooManyDigits) := by
  split
  · rename_i modest
    have readable := printable.readable_reread.mpr modest
    rw [printable.parse_eq, Expr.checked_of_readable readable, printable.reread_eq modest]
  · rename_i vast
    exact printable.parse_of_vast vast

theorem parse_print_mixed :
    let list : Expr := .chain (.path "list")
      [.map "it" (.compare .equal (.path "it") (.literal (.number (.int (-5))))), .join ", "]
    let sum : Expr := .concat [.literal (.text "a || b"), .either (.not (.path "x")) [.path "y"]]
    let e : Expr := .choose (.exist "then") sum (.object [("k", .chain list [.size])])
    e.print = "then???then('a || b' + (!x || y), \x7b'k': (list?map(it -> it == -5)?join(', '))?size\x7d)" ∧
      parse e.print = .ok e := by
  intro list sum e
  have path (p : String) (word : IsWord p) (plain : Numeral.parse? p.toList = .ok none ∧
      p ∉ ["true", "false", "null"]) : Printable (.path p) := .path word plain.1 plain.2
  have body : Printable (.compare .equal (.path "it") (.literal (.number (.int (-5))))) :=
    .compare _ (path "it" (by decide) (by decide)) (.int _)
  have list_ : Printable list := by
    refine .chain (List.cons_ne_nil _ _) (path "list" (by decide) (by decide)) ?_ ?_
    · simp [Stage.Printable]
      decide
    · simpa using body
  have either_ : Printable (.either (.not (.path "x")) [.path "y"]) :=
    .either (List.cons_ne_nil _ _) (.not (path "x" (by decide) (by decide)))
      (List.forall_mem_singleton.mpr (path "y" (by decide) (by decide)))
  have sum_ : Printable sum :=
    .concat (by decide) (List.forall_mem_cons.mpr
      ⟨.text (by decide), List.forall_mem_singleton.mpr either_⟩)
  have object_ : Printable (.object [("k", .chain list [.size])]) :=
    .object (List.forall_mem_singleton.mpr (by decide)) (List.forall_mem_singleton.mpr
      (.chain (List.cons_ne_nil _ _) list_ (by simp [Stage.Printable]) (by simp)))
  have printable : Printable e := .choose (.exist (by decide)) sum_ object_
  exact ⟨by decide, (parse_print printable).trans (if_pos (by decide))⟩

/-- A power of ten with one digit too many is printed, but not read. -/
theorem parse_print_vast :
    let vast : Expr := .literal (.number (.int (Nat.pow 10 digitLimit)))
    let e : Expr := .choose (.literal (.bool true)) (.literal (.text "a")) vast
    Printable e ∧ parse e.print = .error (.fault .tooManyDigits) := by
  intro vast e
  have printable : Printable e := .choose (.bool true) (.text (by decide)) (.int _)
  refine ⟨printable, printable.parse_of_vast fun modest => ?_⟩
  have inside : Number.int (Nat.pow 10 digitLimit) ∈ e.numbers :=
    List.mem_append_right _ List.mem_cons_self
  exact Nat.not_lt.mpr (modest _ inside) (Number.lt_digits_pow (by decide))

end Walkthrough.Expression
