import TokenLayout.Proofs.ScannedSource

/-! # Long lines are found by their text

No leaf sees a whole physical line: it knows the column it ends in, or for a block comment the lines
of its own text. Taken together the leaves up to any point show exactly the lines of the text up to
that point that are too long (`Fragment.tooLongAt_layOut`), however the lines are cut into leaves.
-/

namespace TokenLayout

open Layout

namespace Fragment

variable {maximum number : Nat} {fragment : Fragment} {front : List Char}

/-- A line that is longer than the maximum. -/
def TooLong (maximum : Nat) (line : List Char) : Prop :=
  maximum < line.length

theorem tooLongAt_terminator (tidy : fragment.Tidy) (terminator : fragment.kind = .endOfLine)
    (short : FitsWord front) {init last} (lines : physicalLines front = init ++ [last]) :
    TooLongAt maximum (fragment.token (.ofText front)) number ↔
      number = init.length + 1 ∧ TooLong maximum last := by
  have ends : (fragment.token (.ofText front)).endLine = init.length + 1 := by
    rw [tidy.endLine (by simp [terminator]) (Position.line_ofText_lt short),
      Position.ofText_eq lines]
  constructor
  · intro shown
    cases shown with
    | comment kind => simp [terminator] at kind
    | terminator _ long => exact ⟨ends, by simpa [TooLong, Position.ofText_eq lines] using long⟩
    | other _ kind => simp [terminator] at kind
  · intro given
    obtain ⟨rfl, long⟩ := given
    rw [← ends]
    exact .terminator (by simpa using terminator)
      (by simpa [TooLong, Position.ofText_eq lines] using long)

theorem tooLongAt_plain (tidy : fragment.Tidy) (terminator : fragment.kind ≠ .endOfLine)
    (comment : fragment.kind ≠ .blockComment) (short : FitsWord front) {init last}
    (lines : physicalLines front = init ++ [last]) :
    TooLongAt maximum (fragment.token (.ofText front)) number ↔
      number = init.length + 1 ∧ TooLong maximum (last ++ fragment.text.toList) := by
  have ends : (fragment.token (.ofText front)).endLine = init.length + 1 := by
    rw [tidy.endLine comment (Position.line_ofText_lt short), Position.ofText_eq lines]
  have column := tidy.endColumn terminator comment lines
  rw [TooLong, List.length_append, ← column]
  constructor
  · intro shown
    cases shown with
    | comment kind => exact absurd (by simpa using kind) comment
    | terminator kind => exact absurd (by simpa using kind) terminator
    | other _ _ long => exact ⟨ends, long⟩
  · intro given
    obtain ⟨rfl, long⟩ := given
    rw [← ends]
    exact .other (by simpa using comment) (by simpa using terminator) long

theorem tooLongAt_comment (comment : fragment.kind = .blockComment)
    (short : FitsWord (front ++ fragment.text.toList)) {init last first rest}
    (lines : physicalLines front = init ++ [last])
    (own : physicalLines fragment.text.toList = first :: rest) :
    TooLongAt maximum (fragment.token (.ofText front)) number ↔
      (number = init.length + 1 ∧ TooLong maximum (last ++ first)) ∨
      ∃ j line, rest[j]? = some line ∧ number = init.length + 1 + 1 + j ∧ TooLong maximum line := by
  have column : (fragment.token (.ofText front)).startColumn - 1 = last.length := by
    simp [Position.ofText_eq lines]
  have width : ∀ j line, (physicalLines fragment.text.toList)[j]? = some line →
      wordSum (if j = 0 then last.length else 0) line.length =
        (if j = 0 then last.length else 0) + line.length := by
    intro j line found
    have whole : last.length + line.length < wordBound :=
      short.width_lt (by simp [lines]) (List.mem_of_getElem? found)
    split
    · exact wordSum_of_lt whole
    · exact wordSum_of_lt (by omega)
  have numbered : TooLongAt maximum (fragment.token (.ofText front)) number ↔
      ∃ j line, (first :: rest)[j]? = some line ∧ number = init.length + 1 + j ∧
        maximum < (if j = 0 then last.length else 0) + line.length := by
    rw [← own]
    constructor
    · intro shown
      cases shown with
      | @comment j line _ found long =>
          have found : (physicalLines fragment.text.toList)[j]? = some line := by simpa using found
          rw [column, width j line found] at long
          exact ⟨j, line, found, wordSum_line_token short lines found, long⟩
      | terminator kind => simp [comment] at kind
      | other kind => simp [comment] at kind
    · intro given
      obtain ⟨j, line, found, rfl, long⟩ := given
      rw [← width j line found, ← column] at long
      rw [← wordSum_line_token short lines found]
      exact .comment (by simpa using comment) (by simpa using found) long
  rw [numbered, exists_line_cons]
  simp [TooLong]

/-- One fragment shows what it adds to the lines of the text before it. -/
theorem tooLongAt_token (tidy : fragment.Tidy) (apart : Seamless front fragment.text.toList)
    (short : FitsWord (front ++ fragment.text.toList)) :
    TooLongAt maximum (fragment.token (.ofText front)) number ∨
        OnLine (TooLong maximum) front number ↔
      OnLine (TooLong maximum) (front ++ fragment.text.toList) number := by
  obtain ⟨init, last, lines⟩ := exists_lines_concat front
  obtain ⟨first, rest, own⟩ := exists_lines_cons fragment.text.toList
  rw [onLine_concat lines, onLine_iff (physicalLines_append apart lines own)]
  -- The lines before the last are not touched, and the last one only grows.
  have grows : TooLong maximum last → TooLong maximum (last ++ first) := by
    simp only [TooLong, List.length_append]
    omega
  by_cases comment : fragment.kind = .blockComment
  · rw [tooLongAt_comment comment short lines own]
    grind
  · by_cases terminator : fragment.kind = .endOfLine
    · rw [tooLongAt_terminator tidy terminator short.left lines]
      rw [physicalLines_lineEnd (tidy.terminator terminator)] at own
      obtain ⟨rfl, rfl⟩ := List.cons.inj own
      have fresh : ¬ TooLong maximum [] := Nat.not_lt_zero maximum
      grind
    · rw [tooLongAt_plain tidy terminator comment short.left lines]
      rw [tidy.lines terminator comment] at own
      obtain ⟨rfl, rfl⟩ := List.cons.inj own
      grind

/-- The leaves of a text show exactly its long lines, beside those of what comes before it. -/
theorem tooLongAt_layOut {fragments : List Fragment} (tidy : ∀ fragment ∈ fragments, fragment.Tidy)
    (joins : Joins front fragments) (short : FitsWord (front ++ source fragments)) :
    (∃ token ∈ layOut (.ofText front) fragments, TooLongAt maximum token number) ∨
        OnLine (TooLong maximum) front number ↔
      OnLine (TooLong maximum) (front ++ source fragments) number := by
  induction fragments generalizing front with
  | nil => simp [layOut, source]
  | cons fragment rest ih =>
      obtain ⟨apart, joins⟩ := joins
      obtain ⟨first, tidy⟩ := List.forall_mem_cons.mp tidy
      have spread : source (fragment :: rest) = fragment.text.toList ++ source rest := rfl
      rw [spread, ← List.append_assoc] at short
      rw [spread, ← List.append_assoc, ← ih tidy joins short,
        ← tooLongAt_token first apart short.left, layOut, next_ofText first.terminator apart,
        List.exists_mem_cons_iff]
      exact or_assoc.trans or_left_comm

end Fragment

namespace Builder

theorem breach_lineTooLong {settings : Settings} {calls : List Call} {document : Document}
    (scan : Scans settings calls document) (number : Nat) :
    Breach settings document.tokens (leaves calls) .lineTooLong number ↔
      OnLine (Fragment.TooLong settings.maximum) (source calls) number := by
  have shown : _ ↔ OnLine (Fragment.TooLong settings.maximum) ([] ++ source calls) number :=
    Fragment.tooLongAt_layOut scan.tidy scan.joins scan.short
  have none_yet : ¬ OnLine (Fragment.TooLong settings.maximum) [] number := by
    have blank : physicalLines [] = [] ++ [[]] := rfl
    rw [onLine_concat blank]
    simp [Fragment.TooLong]
  rw [or_iff_left none_yet, List.nil_append] at shown
  rw [← shown]
  constructor
  · intro broken
    cases broken with
    | long member kept long => exact ⟨_, member, long⟩
  · intro given
    obtain ⟨token, member, long⟩ := given
    exact .long member (scan.not_skipped member) long

/-- On a scanned source the check reports a long line exactly where the text has one, once, with the
maximum as context. -/
theorem lineTooLong_reported (settings : Settings) (calls : List Call) (document : Document)
    (scan : Scans settings calls document) :
    ∃ violations, document.checkLayout settings = .ok violations ∧ ∀ number,
      violations.filter (·.key = (.lineTooLong, number)) =
        if (lineAt (source calls) number).any (settings.maximum < ·.length) then
          [⟨.lineTooLong, number, some settings.maximum⟩]
        else [] := by
  apply scan.reports
  intro number
  rw [breach_lineTooLong scan, OnLine, Option.any_eq_true]
  simp [Fragment.TooLong]

theorem lineTooLong_reported_snippet :
    ∃ violations, Document.checkLayout ⟨false, (start.run snippet).newest.reverse⟩ snippetSettings =
        .ok violations ∧
      violations.filter (·.key = (.lineTooLong, 2)) = [⟨.lineTooLong, 2, some 7⟩] ∧
      violations.filter (·.key = (.lineTooLong, 1)) = [] := by
  obtain ⟨violations, checked, reported⟩ :=
    lineTooLong_reported snippetSettings snippet _ snippet_scans
  exact ⟨violations, checked, (reported 2).trans (if_pos (by decide)),
    (reported 1).trans (if_neg (by decide))⟩

end Builder

end TokenLayout
