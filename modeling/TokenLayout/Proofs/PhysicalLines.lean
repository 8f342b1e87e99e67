import Mathlib.Data.List.Basic
import TokenLayout.Number
import TokenLayout.Text

/-! # Physical lines of joined texts

When a text is continued, all its lines stay as they are but the last, which goes on with the first
line of what is added. The one exception is a text that ends in `\r` and is continued with `\n`: the
two characters become one terminator. Positions and the findings of a check follow the text token by
token, so all of them rest on this law.
-/

namespace TokenLayout

/-- The texts stay apart when joined: no `\r` at the end of one meets a `\n` at the start of the
other. -/
def Seamless (front back : List Char) : Prop :=
  ¬ (front.getLast? = some '\r' ∧ back.head? = some '\n')

instance (front back : List Char) : Decidable (Seamless front back) :=
  inferInstanceAs (Decidable (¬ _))

theorem seamless_nil (back : List Char) : Seamless [] back := by
  intro given
  obtain ⟨none_last, -⟩ := given
  cases none_last

/-- A part of the front that is not empty ends where the whole front does. -/
theorem Seamless.of_append (start : List Char) {front back : List Char}
    (apart : Seamless (start ++ front) back) : Seamless front back := by
  intro given
  obtain ⟨last, head⟩ := given
  exact apart ⟨by rw [List.getLast?_append, last]; rfl, head⟩

theorem physicalLines_break {c : Char} {rest : List Char} (breaks : isTerminator c = true)
    (single : Seamless [c] rest) : physicalLines (c :: rest) = [] :: physicalLines rest := by
  rw [physicalLines, if_pos breaks]
  rintro tail rfl rfl
  exact single ⟨rfl, rfl⟩

theorem physicalLines_plain {c : Char} (plain : isTerminator c = false) (rest : List Char) :
    physicalLines (c :: rest) = (physicalLines rest).modifyHead (c :: ·) := by
  rw [physicalLines, if_neg (by simp [plain])]
  rintro tail rfl
  cases plain

theorem exists_lines_cons (text : List Char) : ∃ first rest, physicalLines text = first :: rest :=
  List.exists_cons_of_ne_nil (physicalLines_ne_nil text)

theorem exists_lines_concat (text : List Char) : ∃ init last, physicalLines text = init ++ [last] :=
  List.eq_nil_or_concat' (physicalLines text) |>.resolve_left (physicalLines_ne_nil text)

/-- A first line that is empty belongs to the lines before the last, since there is a last line
after it. -/
theorem init_of_break {text : List Char} {init last}
    (lines : [] :: physicalLines text = init ++ [last]) :
    ∃ later, init = [] :: later ∧ physicalLines text = later ++ [last] := by
  cases init with
  | nil =>
      obtain ⟨-, none_left⟩ := List.cons.inj lines
      exact absurd none_left (physicalLines_ne_nil text)
  | cons first later =>
      obtain ⟨rfl, same⟩ := List.cons.inj lines
      exact ⟨later, rfl, same⟩

/-- The lines of a joined text: the last line of the front goes on with the first of the back. -/
theorem physicalLines_append {front back : List Char} (apart : Seamless front back)
    {init last first rest} (before : physicalLines front = init ++ [last])
    (after : physicalLines back = first :: rest) :
    physicalLines (front ++ back) = init ++ (last ++ first) :: rest := by
  fun_induction physicalLines front generalizing init last with
  | case1 =>
      cases init with
      | nil =>
          cases before
          exact after
      | cons line later => simp at before
  | case2 tail ih =>
      obtain ⟨later, rfl, same⟩ := init_of_break before
      have inner := ih (Seamless.of_append ['\r', '\n'] apart) same
      rw [List.cons_append, List.cons_append, physicalLines, inner, List.cons_append]
  | case3 c tail pair breaks ih =>
      obtain ⟨later, rfl, same⟩ := init_of_break before
      have inner := ih (Seamless.of_append [c] apart) same
      have single : Seamless [c] (tail ++ back) := by
        intro given
        obtain ⟨isReturn, head⟩ := given
        obtain rfl : c = '\r' := by simpa using isReturn
        cases tail with
        | nil => exact apart ⟨rfl, head⟩
        | cons d more =>
            obtain rfl : d = '\n' := by simpa using head
            exact pair more rfl rfl
      rw [List.cons_append, physicalLines_break breaks single, inner, List.cons_append]
  | case4 c tail pair plain ih =>
      obtain ⟨earlier, final, same⟩ := exists_lines_concat tail
      have inner := ih (Seamless.of_append [c] apart) same
      rw [List.cons_append, physicalLines_plain (by simpa using plain), inner]
      rw [same] at before
      -- The character goes to the first line, which may be the last one as well.
      cases earlier with
      | nil =>
          have split : init ++ [last] = [] ++ [c :: final] := before.symm
          obtain ⟨rfl, rfl⟩ := List.append_singleton_inj.mp split
          rfl
      | cons line later =>
          have split : init ++ [last] = ((c :: line) :: later) ++ [final] := before.symm
          obtain ⟨rfl, rfl⟩ := List.append_singleton_inj.mp split
          rfl

/-! ## Lines of one text -/

theorem physicalLines_of_plain {text : List Char} (plain : ∀ c ∈ text, isTerminator c = false) :
    physicalLines text = [text] := by
  induction text with
  | nil => rfl
  | cons c rest ih =>
      rw [List.forall_mem_cons] at plain
      rw [physicalLines_plain plain.1, ih plain.2]
      rfl

/-- A text that does not start with a terminator has something on its first line. -/
theorem first_ne_nil_of_plain {c : Char} {text first rest} (plain : isTerminator c = false)
    (lines : physicalLines (c :: text) = first :: rest) : first ≠ [] := by
  obtain ⟨line, later, same⟩ := exists_lines_cons text
  rw [physicalLines_plain plain, same] at lines
  obtain ⟨rfl, -⟩ := List.cons.inj lines
  exact List.cons_ne_nil c line

/-- A text that does not end with a terminator ends as its last line does. -/
theorem getLast?_last_of_plain {c : Char} {text init last} (plain : isTerminator c = false)
    (ends : text.getLast? = some c) (lines : physicalLines text = init ++ [last]) :
    last.getLast? = some c := by
  obtain ⟨start, rfl⟩ := List.getLast?_eq_some_iff.mp ends
  obtain ⟨earlier, final, same⟩ := exists_lines_concat start
  have single : physicalLines [c] = [[c]] := physicalLines_of_plain (by simpa using plain)
  have apart : Seamless start [c] := by
    intro given
    obtain ⟨-, head⟩ := given
    obtain rfl : c = '\n' := by simpa using head
    cases plain
  rw [physicalLines_append apart same single] at lines
  obtain ⟨rfl, rfl⟩ := List.append_singleton_inj.mp lines
  simp

/-! ## Counting in words -/

theorem length_physicalLines_le (text : List Char) :
    (physicalLines text).length ≤ text.length + 1 := by
  fun_induction physicalLines text with
  | case1 => exact Nat.le_refl 1
  | case2 rest ih =>
      simp only [List.length_cons]
      omega
  | case3 c rest _ _ ih =>
      simp only [List.length_cons]
      omega
  | case4 c rest _ _ ih =>
      simp only [List.length_modifyHead, List.length_cons]
      omega

theorem length_le_of_mem_physicalLines {text line : List Char}
    (member : line ∈ physicalLines text) : line.length ≤ text.length := by
  fun_induction physicalLines text generalizing line with
  | case1 => simp_all
  | case2 rest ih =>
      rcases List.mem_cons.mp member with rfl | later
      · exact Nat.zero_le _
      · exact Nat.le_trans (ih later) (by simp only [List.length_cons]; omega)
  | case3 c rest _ _ ih =>
      rcases List.mem_cons.mp member with rfl | later
      · exact Nat.zero_le _
      · exact Nat.le_trans (ih later) (by simp only [List.length_cons]; omega)
  | case4 c rest _ _ ih =>
      obtain ⟨first, more, same⟩ := exists_lines_cons rest
      rw [same] at member ih
      rcases List.mem_cons.mp member with rfl | later
      · exact Nat.succ_le_succ (ih List.mem_cons_self)
      · exact Nat.le_succ_of_le (ih (List.mem_cons_of_mem first later))

/-- The text is so short that a word counts its lines and its characters. -/
def FitsWord (text : List Char) : Prop :=
  text.length + 1 < wordBound

instance (text : List Char) : Decidable (FitsWord text) :=
  inferInstanceAs (Decidable (_ < _))

theorem FitsWord.left {front back : List Char} (short : FitsWord (front ++ back)) :
    FitsWord front := by
  rw [FitsWord, List.length_append] at short
  rw [FitsWord]
  omega

/-- A text that is continued: the number of its last line, and those that the lines of the other
text have after it, are sums of words. -/
theorem FitsWord.wordSum_line {front back : List Char} (short : FitsWord (front ++ back)) {j : Nat}
    {line : List Char} (found : (physicalLines back)[j]? = some line) :
    wordSum (physicalLines front).length j = (physicalLines front).length + j := by
  obtain ⟨inside, -⟩ := List.getElem?_eq_some_iff.mp found
  have before := length_physicalLines_le front
  have after := length_physicalLines_le back
  rw [FitsWord, List.length_append] at short
  exact wordSum_of_lt (by omega)

theorem FitsWord.width_lt {front back : List Char} (short : FitsWord (front ++ back))
    {last line : List Char} (ends : last ∈ physicalLines front)
    (member : line ∈ physicalLines back) : last.length + line.length < wordBound := by
  have before := length_le_of_mem_physicalLines ends
  have after := length_le_of_mem_physicalLines member
  rw [FitsWord, List.length_append] at short
  omega

/-! ## Lines by number -/

/-- The physical line with a number, counted from one. -/
def lineAt (text : List Char) (number : Nat) : Option (List Char) :=
  if number = 0 then none else (physicalLines text)[number - 1]?

/-- The line with a number has a property. -/
def OnLine (property : List Char → Prop) (text : List Char) (number : Nat) : Prop :=
  ∃ line, lineAt text number = some line ∧ property line

theorem lineAt_eq_some {text line : List Char} {number : Nat} :
    lineAt text number = some line ↔
      ∃ j, (physicalLines text)[j]? = some line ∧ number = j + 1 := by
  rw [lineAt]
  split
  · rename_i zero
    subst zero
    simp
  · constructor
    · intro found
      exact ⟨number - 1, found, by omega⟩
    · intro given
      obtain ⟨j, found, rfl⟩ := given
      exact found

/-- Of lines that are numbered from `base`, the first has that number, and the others go on from the
next. -/
theorem exists_line_cons {property : Nat → List Char → Prop} {base number : Nat} {first rest} :
    (∃ j line, (first :: rest)[j]? = some line ∧ number = base + j ∧ property j line) ↔
      (number = base ∧ property 0 first) ∨
      ∃ j line, rest[j]? = some line ∧ number = base + 1 + j ∧ property (j + 1) line := by
  constructor
  · intro given
    obtain ⟨j, line, found, same, holds⟩ := given
    cases j with
    | zero =>
        obtain rfl : first = line := by simpa using found
        exact .inl ⟨same, holds⟩
    | succ j => exact .inr ⟨j, line, found, by omega, holds⟩
  · intro given
    rcases given with ⟨same, holds⟩ | ⟨j, line, found, same, holds⟩
    · exact ⟨0, first, rfl, same, holds⟩
    · exact ⟨j + 1, line, found, by omega, holds⟩

theorem onLine_iff_any {test : List Char → Bool} {text : List Char} {number : Nat} :
    OnLine (test · = true) text number ↔ (lineAt text number).any test = true := by
  rw [OnLine, Option.any_eq_true]

/-- A text whose lines are given in three parts: some lines, one line, and more lines. -/
theorem onLine_iff {property : List Char → Prop} {text : List Char} {number : Nat}
    {init middle rest} (lines : physicalLines text = init ++ middle :: rest) :
    OnLine property text number ↔
      (∃ j line, init[j]? = some line ∧ number = j + 1 ∧ property line) ∨
      (number = init.length + 1 ∧ property middle) ∨
      ∃ j line, rest[j]? = some line ∧ number = init.length + 2 + j ∧ property line := by
  simp only [OnLine, lineAt_eq_some, lines]
  constructor
  · intro given
    obtain ⟨line, ⟨j, found, rfl⟩, holds⟩ := given
    rcases Nat.lt_trichotomy j init.length with before | same | after
    · rw [List.getElem?_append_left before] at found
      exact .inl ⟨j, line, found, rfl, holds⟩
    · subst same
      obtain rfl : middle = line := by simpa using found
      exact .inr (.inl ⟨rfl, holds⟩)
    · obtain ⟨k, rfl⟩ : ∃ k, j = init.length + (k + 1) := ⟨j - init.length - 1, by omega⟩
      rw [List.getElem?_append_right (by omega), Nat.add_sub_cancel_left] at found
      exact .inr (.inr ⟨k, line, found, by omega, holds⟩)
  · intro given
    rcases given with ⟨j, line, found, rfl, holds⟩ | ⟨rfl, holds⟩ | ⟨j, line, found, rfl, holds⟩
    · obtain ⟨inside, -⟩ := List.getElem?_eq_some_iff.mp found
      exact ⟨line, ⟨j, by rwa [List.getElem?_append_left inside], rfl⟩, holds⟩
    · exact ⟨middle, ⟨init.length, by simp, rfl⟩, holds⟩
    · refine ⟨line, ⟨init.length + (j + 1), ?_, by omega⟩, holds⟩
      rw [List.getElem?_append_right (by omega), Nat.add_sub_cancel_left]
      exact found

theorem onLine_concat {property : List Char → Prop} {text : List Char} {number : Nat} {init last}
    (lines : physicalLines text = init ++ [last]) :
    OnLine property text number ↔
      (∃ j line, init[j]? = some line ∧ number = j + 1 ∧ property line) ∨
      (number = init.length + 1 ∧ property last) := by
  rw [onLine_iff lines]
  simp

end TokenLayout
