import TokenLayout.Proofs.ScannedSource

/-! # Blank line ends are found by their text

A line that ends with a blank is seen by one of three leaves: by the terminator behind a blank run,
by a leaf that takes the rest of the line, or by the block comment that holds the line. On the way
through the text the last line is not settled yet, since nobody has seen its end; `Settled` leaves
it out unless the leaf before took it whole. `LastLine` is what is known of it meanwhile.
-/

namespace TokenLayout

open Layout

theorem endsBlank_append {front back : List Char} (held : back ≠ []) :
    endsBlank (front ++ back) = endsBlank back := by
  rw [endsBlank, List.getLast?_append_of_ne_nil front held, endsBlank]

theorem isBlank_of_isTerminator {c : Char} (breaks : isTerminator c = true) : isBlank c = true := by
  rw [isTerminator, Bool.or_eq_true, beq_iff_eq, beq_iff_eq] at breaks
  rcases breaks with rfl | rfl <;> decide

namespace Fragment

variable {number : Nat} {fragment : Fragment} {front : List Char} {previous : Option Token}

/-- A fragment ends with a blank only if it is a blank run, a terminator or takes its line whole,
and no block comment starts at the end of a line. -/
structure Trimmed (fragment : Fragment) : Prop where
  run : fragment.kind = .whitespace → ∀ c ∈ fragment.text.toList, isBlank c = true
  starts : fragment.kind = .blockComment → fragment.text.toList.head?.any isTerminator = false
  ends : fragment.kind ≠ .whitespace → fragment.kind ≠ .endOfLine →
    fragment.kind.eatsLine = false → endsBlank fragment.text.toList = false

instance (fragment : Fragment) : Decidable fragment.Trimmed :=
  decidable_of_iff
    ((fragment.kind = .whitespace → fragment.text.toList.all isBlank = true) ∧
      (fragment.kind = .blockComment → fragment.text.toList.head?.any isTerminator = false) ∧
      (fragment.kind ≠ .whitespace → fragment.kind ≠ .endOfLine →
        fragment.kind.eatsLine = false → endsBlank fragment.text.toList = false))
    (by simp only [List.all_eq_true]
        exact ⟨fun ⟨run, starts, ends⟩ => ⟨run, starts, ends⟩,
          fun ⟨run, starts, ends⟩ => ⟨run, starts, ends⟩⟩)

/-- The leaf took its line up to the end. -/
def Eaten (previous : Option Token) : Prop :=
  ∃ token ∈ previous, token.kind.eatsLine = true

/-- The lines of a text whose blank ends the leaves up to `previous` have seen. -/
def Settled (front : List Char) (previous : Option Token) (number : Nat) : Prop :=
  OnLine (endsBlank · = true) front number ∧
    (number < (physicalLines front).length ∨ Eaten previous)

/-- The last line ends with a blank after a blank run, and else only after a leaf that took it
whole. -/
def LastLine (front : List Char) (previous : Option Token) : Prop :=
  ∀ init last, physicalLines front = init ++ [last] →
    ((∃ token ∈ previous, token.kind = .whitespace) → endsBlank last = true) ∧
    (endsBlank last = true → (∃ token ∈ previous, token.kind = .whitespace) ∨ Eaten previous)

theorem settled_iff {init middle rest} (lines : physicalLines front = init ++ middle :: rest) :
    Settled front previous number ↔
      (∃ j line, init[j]? = some line ∧ number = j + 1 ∧ endsBlank line = true) ∨
      (number = init.length + 1 ∧ endsBlank middle = true ∧ (rest ≠ [] ∨ Eaten previous)) ∨
      ∃ j line, rest[j]? = some line ∧ number = init.length + 2 + j ∧ endsBlank line = true ∧
        (j + 1 < rest.length ∨ Eaten previous) := by
  have count : (physicalLines front).length = init.length + 1 + rest.length := by
    rw [lines, List.length_append, List.length_cons]
    omega
  rw [Settled, onLine_iff lines, count]
  constructor
  · intro given
    obtain ⟨given, seen⟩ := given
    rcases given with ⟨j, line, found, rfl, blank⟩ | ⟨rfl, blank⟩ | ⟨j, line, found, rfl, blank⟩
    · exact .inl ⟨j, line, found, rfl, blank⟩
    · refine .inr (.inl ⟨rfl, blank, seen.imp_left fun before => ?_⟩)
      exact List.ne_nil_of_length_pos (by omega)
    · refine .inr (.inr ⟨j, line, found, rfl, blank, seen.imp_left fun before => ?_⟩)
      omega
  · intro given
    rcases given with ⟨j, line, found, rfl, blank⟩ | ⟨rfl, blank, seen⟩ |
      ⟨j, line, found, rfl, blank, seen⟩
    · obtain ⟨inside, -⟩ := List.getElem?_eq_some_iff.mp found
      exact ⟨.inl ⟨j, line, found, rfl, blank⟩, .inl (by omega)⟩
    · refine ⟨.inr (.inl ⟨rfl, blank⟩), seen.imp_left fun later => ?_⟩
      have := List.length_pos_of_ne_nil later
      omega
    · refine ⟨.inr (.inr ⟨j, line, found, rfl, blank⟩), seen.imp_left fun before => ?_⟩
      omega

theorem settled_concat {init last} (lines : physicalLines front = init ++ [last]) :
    Settled front previous number ↔
      (∃ j line, init[j]? = some line ∧ number = j + 1 ∧ endsBlank line = true) ∨
      (number = init.length + 1 ∧ endsBlank last = true ∧ Eaten previous) := by
  rw [settled_iff lines]
  simp

theorem not_settled_nil : ¬ Settled [] none number := by
  have blank : physicalLines [] = [] ++ [[]] := rfl
  rw [settled_concat blank]
  simp [endsBlank]

/-! ## What one leaf sees -/

theorem endsBlankAt_terminator (terminator : fragment.kind = .endOfLine) {init last}
    (lines : physicalLines front = init ++ [last]) :
    EndsBlankAt previous (fragment.token (.ofText front)) number ↔
      number = init.length + 1 ∧ ∃ token ∈ previous, token.kind = .whitespace := by
  have starts := fragment.line_ofText lines
  constructor
  · intro shown
    cases shown with
    | run _ before blank => exact ⟨starts, _, before, blank⟩
    | text eats =>
        rw [kind_token, terminator] at eats
        cases eats
    | comment kind => simp [terminator] at kind
  · intro given
    obtain ⟨rfl, before, found, blank⟩ := given
    rw [← starts]
    exact .run (by simpa using terminator) found blank

theorem endsBlankAt_plain (terminator : fragment.kind ≠ .endOfLine)
    (comment : fragment.kind ≠ .blockComment) {init last}
    (lines : physicalLines front = init ++ [last]) :
    EndsBlankAt previous (fragment.token (.ofText front)) number ↔
      number = init.length + 1 ∧ endsBlank fragment.text.toList = true ∧
        fragment.kind.eatsLine = true := by
  have starts := fragment.line_ofText lines
  constructor
  · intro shown
    cases shown with
    | run kind => exact absurd (by simpa using kind) terminator
    | text eats blank => exact ⟨starts, by simpa using blank, by simpa using eats⟩
    | comment kind => exact absurd (by simpa using kind) comment
  · intro given
    obtain ⟨rfl, blank, eats⟩ := given
    rw [← starts]
    exact .text (by simpa using eats) (by simpa using blank)

theorem endsBlankAt_comment (comment : fragment.kind = .blockComment)
    (short : FitsWord (front ++ fragment.text.toList)) {init last first rest}
    (lines : physicalLines front = init ++ [last])
    (own : physicalLines fragment.text.toList = first :: rest) :
    EndsBlankAt previous (fragment.token (.ofText front)) number ↔
      (number = init.length + 1 ∧ endsBlank first = true) ∨
      ∃ j line, rest[j]? = some line ∧ number = init.length + 1 + 1 + j ∧
        endsBlank line = true := by
  have numbered : EndsBlankAt previous (fragment.token (.ofText front)) number ↔
      ∃ j line, (first :: rest)[j]? = some line ∧ number = init.length + 1 + j ∧
        endsBlank line = true := by
    rw [← own]
    constructor
    · intro shown
      cases shown with
      | run kind => simp [comment] at kind
      | text eats =>
          rw [kind_token, comment] at eats
          cases eats
      | @comment j line _ found blank =>
          have found : (physicalLines fragment.text.toList)[j]? = some line := by simpa using found
          exact ⟨j, line, found, wordSum_line_token short lines found, blank⟩
    · intro given
      obtain ⟨j, line, found, rfl, blank⟩ := given
      rw [← wordSum_line_token short lines found]
      exact .comment (by simpa using comment) (by simpa using found) blank
  rw [numbered, exists_line_cons]

theorem Trimmed.first_ne_nil (trimmed : fragment.Trimmed) (tidy : fragment.Tidy)
    (comment : fragment.kind = .blockComment) {first rest}
    (own : physicalLines fragment.text.toList = first :: rest) : first ≠ [] := by
  have starts := trimmed.starts comment
  cases text : fragment.text.toList with
  | nil => exact absurd text tidy.ne_nil
  | cons c more =>
      rw [text] at own starts
      exact first_ne_nil_of_plain (by simpa using starts) own

theorem Trimmed.last_plain (trimmed : fragment.Trimmed) (tidy : fragment.Tidy)
    (other : fragment.kind ≠ .endOfLine) {c : Char}
    (last : fragment.text.toList.getLast? = some c) : isTerminator c = false := by
  by_cases comment : fragment.kind = .blockComment
  · have ends : endsBlank fragment.text.toList = false :=
      trimmed.ends (by simp [comment]) other (by rw [comment]; rfl)
    have visible : isBlank c = false := by simpa [endsBlank, last] using ends
    cases breaks : isTerminator c with
    | false => rfl
    | true => simp [isBlank_of_isTerminator breaks] at visible
  · exact tidy.plain other comment c (List.mem_of_getLast? last)

/-- Behind a fragment that leaves its line open, the line ends as the fragment does. -/
theorem Trimmed.endsBlank_last (trimmed : fragment.Trimmed) (tidy : fragment.Tidy)
    (other : fragment.kind ≠ .endOfLine) {init last}
    (lines : physicalLines (front ++ fragment.text.toList) = init ++ [last]) :
    endsBlank last = endsBlank fragment.text.toList := by
  obtain ⟨c, final⟩ := tidy.exists_last
  have whole : (front ++ fragment.text.toList).getLast? = some c := by
    rw [List.getLast?_append_of_ne_nil front tidy.ne_nil, final]
  have same := getLast?_last_of_plain (trimmed.last_plain tidy other final) whole lines
  rw [endsBlank, endsBlank, same, final]

theorem Trimmed.later_line (trimmed : fragment.Trimmed) (tidy : fragment.Tidy)
    (comment : fragment.kind = .blockComment) {first rest}
    (own : physicalLines fragment.text.toList = first :: rest) {j : Nat} {line : List Char}
    (found : (first :: rest)[j]? = some line) (blank : endsBlank line = true) :
    j < rest.length := by
  obtain ⟨earlier, final, split⟩ := exists_lines_concat fragment.text.toList
  have other : fragment.kind ≠ .endOfLine := by simp [comment]
  have alone : physicalLines ([] ++ fragment.text.toList) = earlier ++ [final] := split
  have ends : endsBlank final = false := by
    rw [trimmed.endsBlank_last tidy other alone]
    exact trimmed.ends (by simp [comment]) other (by rw [comment]; rfl)
  have count : earlier.length = rest.length := by
    simpa using congrArg List.length (split.symm.trans own)
  rw [← own, split] at found
  obtain ⟨inside, -⟩ := List.getElem?_eq_some_iff.mp found
  rw [List.length_append, List.length_singleton] at inside
  rcases Nat.lt_or_eq_of_le (Nat.le_of_lt_succ inside) with before | same
  · omega
  · subst same
    obtain rfl : final = line := by simpa using found
    simp [ends] at blank

/-- One leaf settles what it adds to the lines before it. -/
theorem settled_token (tidy : fragment.Tidy) (trimmed : fragment.Trimmed)
    (apart : Seamless front fragment.text.toList) (known : LastLine front previous)
    (followed : Eaten previous → fragment.kind = .endOfLine)
    (short : FitsWord (front ++ fragment.text.toList)) :
    EndsBlankAt previous (fragment.token (.ofText front)) number ∨
        Settled front previous number ↔
      Settled (front ++ fragment.text.toList) (some (fragment.token (.ofText front))) number := by
  obtain ⟨init, last, lines⟩ := exists_lines_concat front
  obtain ⟨first, rest, own⟩ := exists_lines_cons fragment.text.toList
  obtain ⟨run, blank⟩ := known init last lines
  have eats : Eaten (some (fragment.token (.ofText front))) ↔ fragment.kind.eatsLine = true := by
    simp [Eaten]
  rw [settled_concat lines, settled_iff (physicalLines_append apart lines own), eats]
  by_cases terminator : fragment.kind = .endOfLine
  · rw [physicalLines_lineEnd (tidy.terminator terminator)] at own
    obtain ⟨rfl, rfl⟩ := List.cons.inj own
    have never : fragment.kind.eatsLine = false := by rw [terminator]; rfl
    have fresh : endsBlank [] = false := rfl
    -- The terminator closes the last line, of which `known` says who else can have seen its end.
    rw [endsBlankAt_terminator terminator lines]
    grind
  · have unended : ¬ Eaten previous := fun eaten => terminator (followed eaten)
    by_cases comment : fragment.kind = .blockComment
    · have held := trimmed.first_ne_nil tidy comment own
      have never : fragment.kind.eatsLine = false := by rw [comment]; rfl
      have inner : ∀ j line, (first :: rest)[j]? = some line → endsBlank line = true →
          j < rest.length := fun j line => trimmed.later_line tidy comment own
      -- A blank end inside the comment is never on its last line, which stays open.
      have more : endsBlank first = true → rest ≠ [] :=
        fun blank => List.ne_nil_of_length_pos (inner 0 first rfl blank)
      have later : ∀ j line, rest[j]? = some line → endsBlank line = true →
          j + 1 < rest.length := fun j => inner (j + 1)
      rw [endsBlankAt_comment comment short lines own, endsBlank_append held]
      grind
    · rw [tidy.lines terminator comment] at own
      obtain ⟨rfl, rfl⟩ := List.cons.inj own
      rw [endsBlankAt_plain terminator comment lines, endsBlank_append tidy.ne_nil]
      grind

theorem lastLine_token (tidy : fragment.Tidy) (trimmed : fragment.Trimmed)
    (apart : Seamless front fragment.text.toList) :
    LastLine (front ++ fragment.text.toList) (some (fragment.token (.ofText front))) := by
  intro init last lines
  simp only [Eaten, Option.mem_def, Option.some.injEq, exists_eq_left', kind_token]
  by_cases terminator : fragment.kind = .endOfLine
  · obtain ⟨start, line, before⟩ := exists_lines_concat front
    have own := physicalLines_lineEnd (tidy.terminator terminator)
    have split : init ++ [last] = (start ++ [line]) ++ [[]] := by
      rw [← lines, physicalLines_append apart before own]
      simp
    obtain ⟨-, rfl⟩ := List.append_singleton_inj.mp split
    rw [terminator]
    exact ⟨nofun, nofun⟩
  · rw [trimmed.endsBlank_last tidy terminator lines]
    constructor
    · intro blank
      obtain ⟨c, final⟩ := tidy.exists_last
      rw [endsBlank, final]
      exact trimmed.run blank c (List.mem_of_getLast? final)
    · intro ends
      by_contra neither
      obtain ⟨run, eats⟩ := not_or.mp neither
      have kept := trimmed.ends run terminator (by simpa using eats)
      simp [kept] at ends

theorem lastLine_nil : LastLine [] none := by
  intro init last lines
  have split : init ++ [last] = [] ++ [[]] := lines.symm
  obtain ⟨-, rfl⟩ := List.append_singleton_inj.mp split
  exact ⟨nofun, nofun⟩

/-! ## What all leaves see -/

/-- The leaves of a text settle its lines, beside those that were settled before it. -/
theorem settled_layOut {fragments : List Fragment} (tidy : ∀ fragment ∈ fragments, fragment.Tidy)
    (trimmed : ∀ fragment ∈ fragments, fragment.Trimmed) (joins : Joins front fragments)
    (known : LastLine front previous)
    (followed : fragments.IsChain fun one two => one.kind.eatsLine = true → two.kind = .endOfLine)
    (starts : Eaten previous → ∀ fragment ∈ fragments.head?, fragment.kind = .endOfLine)
    (short : FitsWord (front ++ source fragments)) :
    (∃ pair ∈ paired previous (layOut (.ofText front) fragments),
          EndsBlankAt pair.1 pair.2 number) ∨ Settled front previous number ↔
      Settled (front ++ source fragments)
        ((layOut (.ofText front) fragments).getLast?.or previous) number := by
  induction fragments generalizing front previous with
  | nil => simp [layOut, source, paired]
  | cons fragment rest ih =>
      obtain ⟨apart, joins⟩ := joins
      obtain ⟨first, tidy⟩ := List.forall_mem_cons.mp tidy
      obtain ⟨firstTrimmed, trimmed⟩ := List.forall_mem_cons.mp trimmed
      obtain ⟨next, followed⟩ := List.isChain_cons.mp followed
      let token := fragment.token (.ofText front)
      have spread : source (fragment :: rest) = fragment.text.toList ++ source rest := rfl
      rw [spread, ← List.append_assoc] at short
      have later := ih tidy trimmed joins (lastLine_token first firstTrimmed apart) followed
        (by simpa [Eaten] using fun eats second here => next second here eats) short
      have ends : ∀ tokens : List Token,
          (token :: tokens).getLast?.or previous = tokens.getLast?.or (some token) := by
        intro tokens
        rw [List.getLast?_cons]
        cases tokens.getLast? <;> rfl
      rw [spread, ← List.append_assoc, layOut, next_ofText first.terminator apart, ends, ← later,
        ← settled_token first firstTrimmed apart known (fun eaten => starts eaten fragment rfl)
          short.left,
        paired, List.exists_mem_cons_iff]
      exact or_assoc.trans or_left_comm

theorem kinds_layOut (place : Position) (fragments : List Fragment) :
    (layOut place fragments).map Token.kind = fragments.map Fragment.kind := by
  rw [← congrArg (List.map Fragment.kind) (map_layOut place fragments), List.map_map]
  rfl

theorem eaten_layOut {place : Position} {fragments : List Fragment} :
    Eaten (layOut place fragments).getLast? ↔
      fragments.getLast?.any (·.kind.eatsLine) = true := by
  have same : (layOut place fragments).getLast?.map Token.kind =
      fragments.getLast?.map Fragment.kind := by
    rw [← List.getLast?_map, ← List.getLast?_map, kinds_layOut]
  cases last : fragments.getLast? with
  | none => simp_all [Eaten]
  | some fragment =>
      rw [last] at same
      obtain ⟨token, found, kind⟩ := Option.map_eq_some_iff.mp same
      simp [Eaten, found, kind]

end Fragment

namespace Builder

theorem breach_trailingWhitespace {settings : Settings} {calls : List Call} {document : Document}
    (scan : Scans settings calls document)
    (trimmed : ∀ fragment ∈ fragments false calls, fragment.Trimmed)
    (followed : (fragments false calls).IsChain fun one two =>
      one.kind.eatsLine = true → two.kind = .endOfLine) (number : Nat) :
    Breach settings document.tokens (leaves calls) .trailingWhitespace number ↔
      OnLine (endsBlank · = true) (source calls) number ∧
        (number < (physicalLines (source calls)).length ∨
          (fragments false calls).getLast?.any (·.kind.eatsLine) = true) := by
  have shown : _ ↔ Fragment.Settled ([] ++ source calls) ((leaves calls).getLast?.or none) number :=
    Fragment.settled_layOut scan.tidy trimmed scan.joins Fragment.lastLine_nil followed nofun
      scan.short
  rw [or_iff_left Fragment.not_settled_nil, List.nil_append, Option.or_none, Fragment.Settled,
    leaves, Fragment.eaten_layOut] at shown
  rw [← shown]
  constructor
  · intro broken
    cases broken with
    | trailing here kept blank => exact ⟨_, mem_paired.mpr ⟨_, here, rfl⟩, blank⟩
  · intro given
    obtain ⟨⟨before, token⟩, member, blank⟩ := given
    obtain ⟨i, here, rfl⟩ := mem_paired.mp member
    exact .trailing here (scan.not_skipped (List.mem_of_getElem? here)) blank

/-- On a scanned source the check reports trailing whitespace exactly where a line of the text ends
with a blank, once; the last line, which has no terminator, counts only if a leaf takes it whole. -/
theorem trailingWhitespace_reported (settings : Settings) (calls : List Call) (document : Document)
    (scan : Scans settings calls document)
    (trimmed : ∀ fragment ∈ fragments false calls, fragment.Trimmed)
    (followed : (fragments false calls).IsChain fun one two =>
      one.kind.eatsLine = true → two.kind = .endOfLine) :
    ∃ violations, document.checkLayout settings = .ok violations ∧ ∀ number,
      violations.filter (·.key = (.trailingWhitespace, number)) =
        if (lineAt (source calls) number).any endsBlank ∧
            (number < (physicalLines (source calls)).length ∨
              (fragments false calls).getLast?.any (·.kind.eatsLine)) then
          [⟨.trailingWhitespace, number, none⟩]
        else [] := by
  apply scan.reports
  intro number
  rw [breach_trailingWhitespace scan trimmed followed, onLine_iff_any]

theorem trailingWhitespace_reported_snippet :
    ∃ violations, Document.checkLayout ⟨false, (start.run snippet).newest.reverse⟩ snippetSettings =
        .ok violations ∧
      violations.filter (·.key = (.trailingWhitespace, 3)) = [⟨.trailingWhitespace, 3, none⟩] ∧
      violations.filter (·.key = (.trailingWhitespace, 4)) = [] := by
  obtain ⟨violations, checked, reported⟩ :=
    trailingWhitespace_reported snippetSettings snippet _ snippet_scans (by decide) (by decide)
  exact ⟨violations, checked, (reported 3).trans (if_pos (by decide)),
    (reported 4).trans (if_neg (by decide))⟩

end Builder

end TokenLayout
