/-! # Texts

What the library asks of a text: which of its characters are blank, where its physical lines end,
and what stands between the occurrences of a character. All line and column numbers rest on the cut
into physical lines, at `\r\n`, at `\n` and at a bare `\r`, so that cut is stated on characters and
by recursion on the text.
-/

namespace TokenLayout

/-! ## Blank characters -/

/-- The ranges of the property White_Space, first and last code point of each, in order. -/
def blankRanges : List (Nat × Nat) :=
  [(0x09, 0x0D), (0x20, 0x20), (0x85, 0x85), (0xA0, 0xA0), (0x1680, 0x1680), (0x2000, 0x200A),
   (0x2028, 0x2029), (0x202F, 0x202F), (0x205F, 0x205F), (0x3000, 0x3000)]

/-- Does the character have the property White_Space? -/
def isBlank (c : Char) : Bool :=
  blankRanges.any fun (first, last) => first ≤ c.toNat && c.toNat ≤ last

/-- Does the text end with a blank character? The empty text does not. -/
def endsBlank (text : List Char) : Bool :=
  text.getLast?.any isBlank

/-- The text without the blank characters at either end. -/
def trimBlank (text : List Char) : List Char :=
  ((text.dropWhile isBlank).reverse.dropWhile isBlank).reverse

/-! ## Physical lines -/

/-- Does this character end a physical line, alone or as half of a `\r\n` pair? -/
def isTerminator (c : Char) : Bool :=
  c == '\r' || c == '\n'

/-- The physical lines of a text, without their terminators. `\r\n` counts as one terminator. A
text that ends with a terminator has an empty last line, so there is always at least one line. -/
def physicalLines : List Char → List (List Char)
  | [] => [[]]
  | '\r' :: '\n' :: rest => [] :: physicalLines rest
  | c :: rest =>
    if isTerminator c then [] :: physicalLines rest
    else (physicalLines rest).modifyHead (c :: ·)

/-- Every text has a line, if only an empty one. -/
theorem physicalLines_ne_nil (text : List Char) : physicalLines text ≠ [] := by
  fun_induction physicalLines text with
  | case1 => simp
  | case2 => simp
  | case3 => simp
  | case4 c rest _ _ ih =>
    intro h
    apply ih
    cases hr : physicalLines rest with
    | nil => rfl
    | cons l ls => simp [hr] at h

/-! ## Splitting at a character -/

/-- The parts of a text between the occurrences of a character. There is always at least one. -/
def splitAtChar (divider : Char) : List Char → List (List Char)
  | [] => [[]]
  | c :: rest =>
    if c = divider then [] :: splitAtChar divider rest
    else (splitAtChar divider rest).modifyHead (c :: ·)

def splitText (divider : Char) (text : String) : List String :=
  (splitAtChar divider text.toList).map String.ofList

theorem splitAtChar_eq_splitOn (divider : Char) (text : List Char) :
    splitAtChar divider text = text.splitOn divider := by
  induction text with
  | nil => rfl
  | cons c rest ih =>
      rw [splitAtChar, List.splitOn_eq_splitOnP, List.splitOnP_cons_eq_if_modifyHead, ih,
        List.splitOn_eq_splitOnP]
      simp only [beq_iff_eq]

theorem notMem_of_mem_splitAtChar {divider : Char} {text part : List Char}
    (member : part ∈ splitAtChar divider text) : divider ∉ part := by
  induction text generalizing part with
  | nil =>
      rw [List.mem_singleton.mp member]
      exact List.not_mem_nil
  | cons c rest ih =>
      unfold splitAtChar at member
      split at member
      · rcases List.mem_cons.mp member with rfl | later
        · exact List.not_mem_nil
        · exact ih later
      · rename_i other
        cases parts : splitAtChar divider rest with
        | nil => simp [parts] at member
        | cons first later =>
            simp only [parts, List.modifyHead_cons] at member
            rcases List.mem_cons.mp member with rfl | behind
            · have free : divider ∉ first := ih (parts ▸ List.mem_cons_self)
              simp [free, Ne.symm other]
            · exact ih (parts ▸ List.mem_cons_of_mem first behind)

theorem splitAtChar_append (divider : Char) (front back : List Char) :
    splitAtChar divider (front ++ divider :: back) =
      splitAtChar divider front ++ splitAtChar divider back := by
  simp only [splitAtChar_eq_splitOn, List.splitOn_append_cons_self]

theorem splitAtChar_ne_nil (divider : Char) (text : List Char) : splitAtChar divider text ≠ [] := by
  rw [splitAtChar_eq_splitOn]
  exact List.splitOn_ne_nil divider text

end TokenLayout
