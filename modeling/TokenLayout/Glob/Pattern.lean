import TokenLayout.Text

/-! # Patterns

A pattern matches whole texts: `?` stands for one character, `*` for any run of characters and
`[...]` for one character of a set, all of them for slashes too. `**` may only be a whole part of a
path; followed by a slash it stands for any number of directories, at the end for anything.
-/

namespace TokenLayout

/-- The characters that a set stands for: single ones and ranges, ends included. -/
abbrev CharRange := Char × Char

/-- A piece of a pattern. -/
inductive Glob where
  | char (c : Char)
  | anyChar
  | anyRun
  | anyDirectories
  | within (set : List CharRange)
  | outside (set : List CharRange)
  deriving DecidableEq

abbrev Pattern := List Glob

namespace Pattern

/-- The ranges of a set. A minus between two characters makes a range. -/
def setRanges : List Char → List CharRange
  | low :: '-' :: high :: rest => (low, high) :: setRanges rest
  | c :: rest => (c, c) :: setRanges rest
  | [] => []

/-- Splits a set, whose first character is never its end, from what follows its closing bracket. -/
def splitSet? : List Char → Option (List Char × List Char)
  | [] => none
  | first :: rest =>
    match rest.dropWhile (· != ']') with
    | [] => none
    | _ :: after => some (first :: rest.takeWhile (· != ']'), after)

/-- Reads a set after its opening bracket. -/
def readSet? : List Char → Option (Glob × List Char)
  | '!' :: rest => (splitSet? rest).map fun (set, after) => (.outside (setRanges set), after)
  | rest => (splitSet? rest).map fun (set, after) => (.within (setRanges set), after)

/-- What follows a set is shorter than what it was read from. -/
private theorem length_splitSet_lt {text set after : List Char}
    (h : splitSet? text = some (set, after)) : after.length < text.length := by
  cases text with
  | nil => simp [splitSet?] at h
  | cons first rest =>
    simp only [splitSet?] at h
    split at h
    · simp at h
    · rename_i c left heq
      simp only [Option.some.injEq, Prod.mk.injEq] at h
      have hle : (rest.dropWhile (· != ']')).length ≤ rest.length :=
        (List.dropWhile_suffix _).sublist.length_le
      rw [heq] at hle
      simp only [List.length_cons] at hle ⊢
      rw [← h.2]
      omega

private theorem length_readSet_lt {text after : List Char} {piece : Glob}
    (h : readSet? text = some (piece, after)) : after.length < text.length := by
  unfold readSet? at h
  split at h <;> simp only [Option.map_eq_some_iff, Prod.mk.injEq] at h
  · obtain ⟨⟨set, left⟩, hset, -, rfl⟩ := h
    have := length_splitSet_lt hset
    simp only [List.length_cons]
    omega
  · obtain ⟨⟨set, left⟩, hset, -, rfl⟩ := h
    exact length_splitSet_lt hset

/-- Reads the pieces of a pattern; `start` tells whether a part of a path starts here. -/
def read? (start : Bool) (text : List Char) : Option Pattern :=
  match text with
  | [] => some []
  | '?' :: rest => (read? false rest).map (.anyChar :: ·)
  | '*' :: '*' :: rest =>
    if !start then none
    else
      match rest with
      | [] => some [.anyDirectories]
      | '/' :: rest => (read? true rest).map (.anyDirectories :: ·)
      | _ => none
  | '*' :: rest => (read? false rest).map (.anyRun :: ·)
  | '[' :: rest =>
    match _h : readSet? rest with
    | none => none
    | some (piece, after) => (read? false after).map (piece :: ·)
  | c :: rest => (read? (c == '/') rest).map (.char c :: ·)
termination_by text.length
decreasing_by
  all_goals simp only [List.length_cons]
  all_goals try omega
  have := length_readSet_lt _h
  omega

/-- The pattern that a text writes; `none` if it writes none. -/
def parse? (text : String) : Option Pattern :=
  read? true text.toList

def inSet (set : List CharRange) (c : Char) : Bool :=
  set.any fun (low, high) => low ≤ c && c ≤ high

/-- Does a piece that stands for one character accept this one? -/
def accepts : Glob → Char → Bool
  | .char expected, c => c == expected
  | .anyChar, _ => true
  | .within set, c => inSet set c
  | .outside set, c => !inSet set c
  | .anyRun, _ => false
  | .anyDirectories, _ => false

/-- All ends of a text, from the whole text to the empty one. -/
def ends : List Char → List (List Char)
  | [] => [[]]
  | c :: rest => (c :: rest) :: ends rest

/-- The ends of a text that come after a slash, and the empty end. -/
def endsAfterSlash : List Char → List (List Char)
  | [] => [[]]
  | c :: rest => if c = '/' then rest :: endsAfterSlash rest else endsAfterSlash rest

/-- Does the pattern match the whole text? This says what a pattern means; `matchesText` decides it
without trying a text twice. -/
def accept : Pattern → List Char → Bool
  | [], text => text.isEmpty
  | .anyRun :: rest, text => (ends text).any (accept rest)
  | .anyDirectories :: rest, text => accept rest text || (endsAfterSlash text).any (accept rest)
  | piece :: rest, c :: text => accepts piece c && accept rest text
  | _ :: _, [] => false

/-! ## Matching in one pass for each piece

A row holds an answer for every end of a text, the longest first. The row of a pattern comes from
the row of the pattern without its first piece, so a text is matched in as many steps as the
pattern has pieces times the characters of the text.
-/

/-- For every end of a row's text: does one of the row's answers from there on say yes? -/
def anyLater : List Bool → List Bool
  | [] => []
  | answer :: row =>
    let later := anyLater row
    (answer || later.headD false) :: later

/-- For every end of a text: does a row say yes after one of the slashes from there on, or at the
empty end? -/
def anyAfterSlash : List Char → List Bool → List Bool
  | c :: text, _ :: row =>
    let later := anyAfterSlash text row
    (c == '/' && row.headD false || later.headD false) :: later
  | _, row => row

/-- For every end of a text: does a piece accept its first character, and a row say yes to the
rest? -/
def firstAccepted (piece : Glob) : List Char → List Bool → List Bool
  | c :: text, _ :: row => (accepts piece c && row.headD false) :: firstAccepted piece text row
  | _, _ => [false]

/-- The row of a pattern with one more piece in front. -/
def prepend (piece : Glob) (text : List Char) (row : List Bool) : List Bool :=
  match piece with
  | .anyRun => anyLater row
  | .anyDirectories => List.zipWith (· || ·) row (anyAfterSlash text row)
  | _ => firstAccepted piece text row

/-- Which ends of a text the pattern matches, the longest first. -/
def row (pattern : Pattern) (text : List Char) : List Bool :=
  pattern.foldr (prepend · text) ((ends text).map List.isEmpty)

def matchesText (pattern : Pattern) (text : String) : Bool :=
  (pattern.row text.toList).headD false

/-! ## A row answers for every end -/

private theorem head_ends (text : List Char) : (ends text).head? = some text := by
  cases text <;> rfl

private theorem anyLater_map_ends (f : List Char → Bool) (text : List Char) :
    anyLater ((ends text).map f) = (ends text).map fun rest => (ends rest).any f := by
  induction text with
  | nil => simp [ends, anyLater]
  | cons c rest ih => simp [ends, anyLater, ih, head_ends]

private theorem anyAfterSlash_map_ends (f : List Char → Bool) (text : List Char) :
    anyAfterSlash text ((ends text).map f) =
      (ends text).map fun rest => (endsAfterSlash rest).any f := by
  induction text with
  | nil => simp [ends, anyAfterSlash, endsAfterSlash]
  | cons c rest ih =>
    by_cases h : c = '/'
    · simp [ends, anyAfterSlash, endsAfterSlash, ih, head_ends, h]
    · have : (c == '/') = false := by simp [h]
      simp [ends, anyAfterSlash, endsAfterSlash, ih, head_ends, h, this]

private theorem firstAccepted_map_ends (piece : Glob) (f : List Char → Bool) (text : List Char) :
    firstAccepted piece text ((ends text).map f) =
      (ends text).map fun
        | [] => false
        | c :: rest => accepts piece c && f rest := by
  induction text with
  | nil => simp [ends, firstAccepted]
  | cons c rest ih => simp [ends, firstAccepted, ih, head_ends]

private theorem prepend_map_ends (piece : Glob) (rest : Pattern) (text : List Char) :
    prepend piece text ((ends text).map rest.accept) =
      (ends text).map (accept (piece :: rest)) := by
  cases piece with
  | anyRun => simp [prepend, anyLater_map_ends, accept]
  | anyDirectories =>
    simp [prepend, anyAfterSlash_map_ends, accept, List.zipWith_map_left, List.zipWith_map_right,
      List.zipWith_self]
  | _ =>
    simp only [prepend, firstAccepted_map_ends]
    apply List.map_congr_left
    intro fore _
    cases fore <;> simp [accept]

/-- The row of a pattern says of every end of the text whether the pattern matches it. -/
theorem row_eq (pattern : Pattern) (text : List Char) :
    pattern.row text = (ends text).map pattern.accept := by
  induction pattern with
  | nil => simp [row, accept]
  | cons piece rest ih =>
    rw [← prepend_map_ends, ← ih]
    rfl

/-- Matching decides what the pattern means. -/
theorem matchesText_eq (pattern : Pattern) (text : String) :
    pattern.matchesText text = pattern.accept text.toList := by
  simp [matchesText, row_eq, head_ends]

/-- The character that a piece stands for, if it stands for only one. -/
def literalChar? : Glob → Option Char
  | .char c => some c
  | _ => none

/-- The text that the pattern stands for, if it stands for only one. -/
def literal? (pattern : Pattern) : Option String :=
  (pattern.mapM literalChar?).map String.ofList

/-- Is it the pattern of a path part that stands for any number of directories? -/
def isRecursive (pattern : Pattern) : Bool :=
  pattern.contains .anyDirectories

end Pattern

end TokenLayout
