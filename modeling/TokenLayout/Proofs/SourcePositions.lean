import Mathlib.Data.List.Chain
import TokenLayout.Proofs.BuilderRun

/-! # Positions in the source text

The texts of the fragments, joined, are the source text. A builder never sees it; it moves a line
and a column by the width of each fragment. `Fragment.next_ofText` says that they stay where the
text itself puts the next character.
-/

namespace TokenLayout

/-- The position behind a text: on its last line, in the column after that line's end. -/
def Position.ofText (text : List Char) : Position :=
  ⟨(physicalLines text).length, ((physicalLines text).getLastD []).length + 1⟩

theorem Position.ofText_eq {text init last} (lines : physicalLines text = init ++ [last]) :
    ofText text = ⟨init.length + 1, last.length + 1⟩ := by
  simp [ofText, lines]

theorem Position.line_ofText_lt {text : List Char} (short : FitsWord text) :
    (ofText text).line < wordBound :=
  Nat.lt_of_le_of_lt (length_physicalLines_le text) short

/-- The texts that end a line, and nothing else. -/
def lineEnds : List String :=
  ["\n", "\r\n", "\r"]

theorem physicalLines_lineEnd {text : String} (ends : text ∈ lineEnds) :
    physicalLines text.toList = [[], []] := by
  simp only [lineEnds, List.mem_cons, List.not_mem_nil, or_false] at ends
  rcases ends with rfl | rfl | rfl <;> simp [physicalLines, isTerminator]

namespace Fragment

/-- The source text that fragments stand for. -/
def source (fragments : List Fragment) : List Char :=
  fragments.flatMap (·.text.toList)

/-- No fragment starts with the second half of a `\r\n` whose first half ends the text before it. -/
def Joins (front : List Char) : List Fragment → Prop
  | [] => True
  | fragment :: rest =>
    Seamless front fragment.text.toList ∧ Joins (front ++ fragment.text.toList) rest

theorem joins_of_isChain {fragments : List Fragment} {front : List Char}
    (written : ∀ fragment ∈ fragments, fragment.text ≠ "")
    (seams : fragments.IsChain fun one two => Seamless one.text.toList two.text.toList)
    (apart : ∀ fragment ∈ fragments.head?, Seamless front fragment.text.toList) :
    Joins front fragments := by
  induction fragments generalizing front with
  | nil => trivial
  | cons fragment rest ih =>
      rw [List.forall_mem_cons] at written
      rw [List.isChain_cons] at seams
      refine ⟨apart fragment rfl, ih written.2 seams.2 ?_⟩
      -- What is written is not empty, so the joined text ends as the fragment does.
      rintro second next ⟨last, head⟩
      have held : fragment.text.toList ≠ [] := by simpa using written.1
      rw [List.getLast?_append_of_ne_nil _ held] at last
      exact seams.1 second next ⟨last, head⟩

/-- The builder's position stays the one that the source text gives. -/
theorem next_ofText {fragment : Fragment} {front : List Char}
    (ends : fragment.kind = .endOfLine → fragment.text ∈ lineEnds)
    (apart : Seamless front fragment.text.toList) :
    fragment.next (.ofText front) = .ofText (front ++ fragment.text.toList) := by
  obtain ⟨init, last, before⟩ := exists_lines_concat front
  obtain ⟨first, rest, after⟩ := exists_lines_cons fragment.text.toList
  have joined := physicalLines_append apart before after
  rw [Position.ofText_eq before]
  by_cases terminator : fragment.kind = .endOfLine
  · rw [physicalLines_lineEnd (ends terminator)] at after
    obtain ⟨rfl, rfl⟩ := List.cons.inj after
    have split : init ++ (last ++ []) :: [[]] = (init ++ [last]) ++ [[]] := by simp
    rw [next_terminator terminator, Position.ofText_eq (joined.trans split)]
    simp
  · rcases List.eq_nil_or_concat' rest with rfl | ⟨middle, final, rfl⟩
    · rw [next_single terminator after, Position.ofText_eq joined, List.length_append]
      simp only [Position.mk.injEq, true_and]
      omega
    · have split : init ++ (last ++ first) :: (middle ++ [final]) =
          (init ++ (last ++ first) :: middle) ++ [final] := by simp
      rw [next_several terminator after, Position.ofText_eq (joined.trans split),
        List.length_append, List.length_cons]
      simp only [Position.mk.injEq, and_true]
      omega

theorem line_ofText (fragment : Fragment) {front init last}
    (lines : physicalLines front = init ++ [last]) :
    (fragment.token (.ofText front)).line = init.length + 1 := by
  rw [line_token, Position.ofText_eq lines]

/-- The lines of a fragment are numbered on from the line that the text before it ends in. -/
theorem wordSum_line_token {fragment : Fragment} {front init last}
    (short : FitsWord (front ++ fragment.text.toList))
    (lines : physicalLines front = init ++ [last]) {j : Nat} {line : List Char}
    (found : (physicalLines fragment.text.toList)[j]? = some line) :
    wordSum (fragment.token (.ofText front)).line j = init.length + 1 + j := by
  have count : (physicalLines front).length = init.length + 1 := by simp [lines]
  rw [fragment.line_ofText lines, ← count, short.wordSum_line found]

/-- A fragment as a scanner cuts it from a source: it is of a leaf kind and not empty, a terminator
is written as one, and only a block comment goes over the end of a line. -/
structure Tidy (fragment : Fragment) : Prop where
  leaf : fragment.kind.isLeaf = true
  written : fragment.text ≠ ""
  terminator : fragment.kind = .endOfLine → fragment.text ∈ lineEnds
  plain : fragment.kind ≠ .endOfLine → fragment.kind ≠ .blockComment →
    ∀ c ∈ fragment.text.toList, isTerminator c = false

-- By `List.all`, since a question about all characters may be taken as one about every code point.
instance (fragment : Fragment) : Decidable fragment.Tidy :=
  decidable_of_iff
    (fragment.kind.isLeaf = true ∧ fragment.text ≠ "" ∧
      (fragment.kind = .endOfLine → fragment.text ∈ lineEnds) ∧
      (fragment.kind ≠ .endOfLine → fragment.kind ≠ .blockComment →
        fragment.text.toList.all (isTerminator · = false) = true))
    (by simp only [List.all_eq_true, decide_eq_true_eq]
        exact ⟨fun ⟨leaf, written, terminator, plain⟩ => ⟨leaf, written, terminator, plain⟩,
          fun ⟨leaf, written, terminator, plain⟩ => ⟨leaf, written, terminator, plain⟩⟩)

theorem Tidy.ne_nil {fragment : Fragment} (tidy : fragment.Tidy) : fragment.text.toList ≠ [] := by
  simpa using tidy.written

theorem Tidy.exists_last {fragment : Fragment} (tidy : fragment.Tidy) :
    ∃ c, fragment.text.toList.getLast? = some c :=
  ⟨_, List.getLast?_eq_some_getLast tidy.ne_nil⟩

theorem Tidy.lines {fragment : Fragment} (tidy : fragment.Tidy)
    (terminator : fragment.kind ≠ .endOfLine) (comment : fragment.kind ≠ .blockComment) :
    physicalLines fragment.text.toList = [fragment.text.toList] :=
  physicalLines_of_plain (tidy.plain terminator comment)

theorem Tidy.endLine {fragment : Fragment} (tidy : fragment.Tidy)
    (comment : fragment.kind ≠ .blockComment) {place : Position} (word : place.line < wordBound) :
    (fragment.token place).endLine = place.line := by
  have single : (fragment.token place).lineSpan = 1 := by
    by_cases terminator : fragment.kind = .endOfLine
    · exact lineSpan_terminator terminator place
    · rw [lineSpan_token terminator, tidy.lines terminator comment]
      rfl
  rw [Token.endLine, line_token, single]
  exact wordSum_zero word

/-- Without a line end inside, a fragment ends where the text up to it does. -/
theorem Tidy.endColumn {fragment : Fragment} (tidy : fragment.Tidy)
    (terminator : fragment.kind ≠ .endOfLine) (comment : fragment.kind ≠ .blockComment)
    {front init last} (lines : physicalLines front = init ++ [last]) :
    (fragment.token (.ofText front)).endColumn =
      last.length + fragment.text.toList.length := by
  have held := List.length_pos_of_ne_nil tidy.ne_nil
  rw [endColumn_single terminator (tidy.lines terminator comment), Position.ofText_eq lines]
  simp only
  omega

end Fragment

end TokenLayout
