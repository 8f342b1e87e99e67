import Mathlib.Data.List.Chain
import TokenLayout.Proofs.PhysicalLines

/-! # The one way to cut a text into lines

A text can be written as lines with terminators between them. Lines hold no terminator, so only one
thing leaves a choice: a `\r` and a `\n` in a row may be one terminator or two with an empty line
between them. Cuts that never take them for two are proper, and every text has exactly one proper
cut, whose lines are the physical lines. Cuts are built up from the end of the text, by a character
or a terminator in front, and all proofs follow that.
-/

namespace TokenLayout

inductive Terminator where
  | crlf
  | lf
  | cr
  deriving DecidableEq

def Terminator.chars : Terminator → List Char
  | crlf => ['\r', '\n']
  | lf => ['\n']
  | cr => ['\r']

/-- Lines with terminators between them: the first line, and each further line behind its
terminator. -/
structure Cut where
  first : List Char
  rest : List (Terminator × List Char)
  deriving DecidableEq

namespace Cut

def lines (cut : Cut) : List (List Char) :=
  cut.first :: cut.rest.map Prod.snd

def text (cut : Cut) : List Char :=
  cut.first ++ cut.rest.flatMap fun (mark, line) => mark.chars ++ line

@[mk_iff]
structure Proper (cut : Cut) : Prop where
  plain : ∀ line ∈ cut.lines, ∀ c ∈ line, isTerminator c = false
  apart : cut.rest.IsChain fun one two => ¬ (one.1 = .cr ∧ one.2 = [] ∧ two.1 = .lf)

/-! ## Building cuts -/

def empty : Cut :=
  ⟨[], []⟩

def extend (c : Char) (cut : Cut) : Cut :=
  ⟨c :: cut.first, cut.rest⟩

def after (mark : Terminator) (cut : Cut) : Cut :=
  ⟨[], (mark, cut.first) :: cut.rest⟩

@[elab_as_elim]
theorem built {motive : Cut → Prop} (cut : Cut) (empty : motive empty)
    (extend : ∀ c cut, motive cut → motive (extend c cut))
    (after : ∀ mark cut, motive cut → motive (after mark cut)) : motive cut := by
  obtain ⟨first, rest⟩ := cut
  induction rest generalizing first with
  | nil =>
      induction first with
      | nil => exact empty
      | cons c first ih => exact extend c ⟨first, []⟩ ih
  | cons pair rest inner =>
      induction first with
      | nil => exact after pair.1 ⟨pair.2, rest⟩ (inner pair.2)
      | cons c first ih => exact extend c ⟨first, pair :: rest⟩ ih

theorem text_extend (c : Char) (cut : Cut) : (extend c cut).text = c :: cut.text :=
  rfl

theorem text_after (mark : Terminator) (cut : Cut) :
    (after mark cut).text = mark.chars ++ cut.text := by
  simp [after, text]

theorem proper_empty : Proper empty :=
  ⟨by simp [lines, empty], .nil⟩

theorem proper_extend {c : Char} {cut : Cut} :
    (extend c cut).Proper ↔ isTerminator c = false ∧ cut.Proper := by
  simp only [proper_iff, extend, lines, List.forall_mem_cons, and_assoc]

/-- A text starts with `\n` only where its cut has an empty first line and then this terminator. -/
theorem head?_text {cut : Cut} (proper : cut.Proper) :
    cut.text.head? = some '\n' ↔ cut.first = [] ∧ ∃ pair ∈ cut.rest.head?, pair.1 = .lf := by
  obtain ⟨first, rest⟩ := cut
  cases first with
  | cons c first =>
      have plain := proper.plain _ List.mem_cons_self c List.mem_cons_self
      have other : c ≠ '\n' := by
        rintro rfl
        cases plain
      simp [text, other]
  | nil =>
      cases rest with
      | nil => simp [text]
      | cons pair rest =>
          obtain ⟨mark, line⟩ := pair
          cases mark <;> simp [text, Terminator.chars]

theorem proper_after {mark : Terminator} {cut : Cut} :
    (after mark cut).Proper ↔ cut.Proper ∧ Seamless mark.chars cut.text := by
  have plain : (∀ line ∈ (after mark cut).lines, ∀ c ∈ line, isTerminator c = false) ↔
      ∀ line ∈ cut.lines, ∀ c ∈ line, isTerminator c = false := by
    simp [after, lines]
  have ends : mark.chars.getLast? = some '\r' ↔ mark = .cr := by
    cases mark <;> decide
  rw [proper_iff, plain, after, List.isChain_cons, and_left_comm, ← proper_iff, and_comm]
  refine and_congr_right fun proper => ?_
  rw [Seamless, ends, head?_text proper]
  constructor
  · rintro free ⟨isReturn, blank, pair, next, isFeed⟩
    exact free pair next ⟨isReturn, blank, isFeed⟩
  · rintro free pair next ⟨isReturn, blank, isFeed⟩
    exact free ⟨isReturn, blank, pair, next, isFeed⟩

/-! ## The cut of a text -/

/-- A text starts with a plain character or with a terminator that goes no further. -/
@[elab_as_elim]
theorem text_induction {motive : List Char → Prop} (text : List Char) (empty : motive [])
    (plain : ∀ c rest, isTerminator c = false → motive rest → motive (c :: rest))
    (mark : ∀ (mark : Terminator) rest, Seamless mark.chars rest → motive rest →
      motive (mark.chars ++ rest)) : motive text := by
  fun_induction physicalLines text with
  | case1 => exact empty
  | case2 rest ih => exact mark .crlf rest (by simp [Seamless, Terminator.chars]) ih
  | case3 c rest pair breaks ih =>
      have either : c = '\r' ∨ c = '\n' := by simpa [isTerminator] using breaks
      rcases either with rfl | rfl
      · refine mark .cr rest ?_ ih
        rintro ⟨-, feed⟩
        obtain ⟨tail, rfl⟩ := List.head?_eq_some_iff.mp feed
        exact pair tail rfl rfl
      · exact mark .lf rest (by simp [Seamless, Terminator.chars]) ih
  | case4 c rest pair breaks ih => exact plain c rest (by simpa using breaks) ih

def ofText : List Char → Cut
  | [] => empty
  | '\r' :: '\n' :: rest => after .crlf (ofText rest)
  | '\r' :: rest => after .cr (ofText rest)
  | '\n' :: rest => after .lf (ofText rest)
  | c :: rest => extend c (ofText rest)

theorem ofText_plain {c : Char} (plain : isTerminator c = false) (rest : List Char) :
    ofText (c :: rest) = extend c (ofText rest) := by
  rw [ofText]
  · rintro tail rfl
    cases plain
  · rintro rfl
    cases plain
  · rintro rfl
    cases plain

theorem ofText_mark {mark : Terminator} {rest : List Char} (apart : Seamless mark.chars rest) :
    ofText (mark.chars ++ rest) = after mark (ofText rest) := by
  cases mark with
  | crlf => rfl
  | lf => rfl
  | cr =>
      rw [Terminator.chars, List.singleton_append, ofText]
      rintro tail rfl
      exact apart ⟨rfl, rfl⟩

theorem physicalLines_mark {mark : Terminator} {rest : List Char}
    (apart : Seamless mark.chars rest) :
    physicalLines (mark.chars ++ rest) = [] :: physicalLines rest := by
  cases mark with
  | crlf => rfl
  | lf => exact physicalLines_break rfl apart
  | cr => exact physicalLines_break rfl apart

theorem text_ofText (text : List Char) : (ofText text).text = text := by
  induction text using text_induction with
  | empty => rfl
  | plain c rest plain ih => rw [ofText_plain plain, text_extend, ih]
  | mark mark rest apart ih => rw [ofText_mark apart, text_after, ih]

theorem proper_ofText (text : List Char) : (ofText text).Proper := by
  induction text using text_induction with
  | empty => exact proper_empty
  | plain c rest plain ih =>
      rw [ofText_plain plain]
      exact proper_extend.mpr ⟨plain, ih⟩
  | mark mark rest apart ih =>
      rw [ofText_mark apart, proper_after, text_ofText]
      exact ⟨ih, apart⟩

theorem lines_ofText (text : List Char) : (ofText text).lines = physicalLines text := by
  induction text using text_induction with
  | empty => rfl
  | plain c rest plain ih =>
      rw [ofText_plain plain, physicalLines_plain plain, ← ih]
      rfl
  | mark mark rest apart ih =>
      rw [ofText_mark apart, physicalLines_mark apart, ← ih]
      rfl

theorem ofText_text {cut : Cut} (proper : cut.Proper) : ofText cut.text = cut := by
  induction cut using built with
  | empty => rfl
  | extend c cut ih =>
      obtain ⟨plain, inner⟩ := proper_extend.mp proper
      rw [text_extend, ofText_plain plain, ih inner]
  | after mark cut ih =>
      obtain ⟨inner, apart⟩ := proper_after.mp proper
      rw [text_after, ofText_mark apart, ih inner]

end Cut

/-! ## Joined texts -/

/-- The lines of two texts, the last of the first text going on with the first of the second. -/
def joinedLines (front back : List Char) : List (List Char) :=
  (physicalLines front).dropLast ++
    ((physicalLines front).getLast (physicalLines_ne_nil front) ++
      (physicalLines back).head (physicalLines_ne_nil back)) :: (physicalLines back).tail

theorem length_joinedLines (front back : List Char) :
    (joinedLines front back).length + 1 =
      (physicalLines front).length + (physicalLines back).length := by
  have before := List.length_pos_of_ne_nil (physicalLines_ne_nil front)
  have behind := List.length_pos_of_ne_nil (physicalLines_ne_nil back)
  simp only [joinedLines, List.length_append, List.length_dropLast, List.length_cons,
    List.length_tail]
  omega

theorem physicalLines_of_seamless {front back : List Char} (apart : Seamless front back) :
    physicalLines (front ++ back) = joinedLines front back :=
  physicalLines_append apart (List.dropLast_append_getLast _).symm (List.cons_head_tail _).symm

theorem length_of_seamless {front back : List Char} (apart : Seamless front back) :
    (physicalLines (front ++ back)).length + 1 =
      (physicalLines front).length + (physicalLines back).length := by
  rw [physicalLines_of_seamless apart, length_joinedLines]

/-- Where `\r` meets `\n`, one terminator is left of two, and so there is a line less. -/
theorem length_of_seam (front back : List Char) :
    (physicalLines ((front ++ ['\r']) ++ '\n' :: back)).length + 1 =
      (joinedLines (front ++ ['\r']) ('\n' :: back)).length := by
  have whole : (physicalLines (front ++ '\r' :: '\n' :: back)).length + 1 =
      (physicalLines front).length + ((physicalLines back).length + 1) :=
    length_of_seamless (by simp [Seamless])
  have before : (physicalLines (front ++ ['\r'])).length + 1 = (physicalLines front).length + 2 :=
    length_of_seamless (by simp [Seamless])
  have behind : physicalLines ('\n' :: back) = [] :: physicalLines back :=
    physicalLines_break rfl (by simp [Seamless])
  have apart := length_joinedLines (front ++ ['\r']) ('\n' :: back)
  rw [behind, List.length_cons] at apart
  rw [List.append_assoc, List.singleton_append]
  omega

theorem seamless_iff {front back : List Char} :
    Seamless front back ↔ physicalLines (front ++ back) = joinedLines front back := by
  constructor
  · exact physicalLines_of_seamless
  · rintro same ⟨isReturn, isFeed⟩
    obtain ⟨front, rfl⟩ := List.getLast?_eq_some_iff.mp isReturn
    obtain ⟨back, rfl⟩ := List.head?_eq_some_iff.mp isFeed
    have shorter := length_of_seam front back
    rw [same] at shorter
    omega

/-- Every text has one proper cut, and its lines are the physical lines. Joined texts have the lines
of both, up to the place where they meet, unless a terminator comes about there. -/
theorem physicalLines_exact :
    (∀ text : List Char, ∃ cut : Cut, cut.Proper ∧ cut.text = text ∧
      cut.lines = physicalLines text ∧
      ∀ other : Cut, other.Proper → other.text = text → other = cut) ∧
    ∀ front back : List Char,
      Seamless front back ↔ physicalLines (front ++ back) = joinedLines front back := by
  constructor
  · intro text
    refine ⟨.ofText text, Cut.proper_ofText text, Cut.text_ofText text, Cut.lines_ofText text, ?_⟩
    intro other proper same
    rw [← same, Cut.ofText_text proper]
  · intro front back
    exact seamless_iff

example : Cut.ofText "a\r\n\rb\n".toList =
    ⟨['a'], [(.crlf, []), (.cr, ['b']), (.lf, [])]⟩ := by
  decide

end TokenLayout
