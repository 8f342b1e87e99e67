import Mathlib.Data.List.Basic
import TokenLayout.Path

/-! # Paths seen from a directory

A path is taken apart into where it starts and the steps from there. Joining a relative path to a
directory keeps the start and adds the steps, however the directory is written: with `.` among its
parts, with slashes in a row or at its end. As seen from the directory, the joined path then has the
added steps and nothing else, and a path of plain names comes back as it was written.
-/

namespace TokenLayout.Path

def start (path : Path) : List Part :=
  if path.isAbsolute then [.root]
  else if (splitText '/' path.text).head? == some "." then [.here]
  else []

def steps (path : Path) : List Part :=
  (splitText '/' path.text).filterMap Part.ofPiece?

theorem parts_eq (path : Path) : path.parts = path.start ++ path.steps :=
  rfl

/-- All pieces of the path are names of entries. Such a path is relative and leads somewhere. -/
def IsPlain (path : Path) : Prop :=
  ∀ piece ∈ splitText '/' path.text, piece ≠ "" ∧ piece ≠ "." ∧ piece ≠ ".."

instance (path : Path) : Decidable path.IsPlain :=
  inferInstanceAs (Decidable (∀ _ ∈ _, _))

/-- The directories on the way: all pieces of the path but the last. -/
def directories (path : Path) : List String :=
  (splitText '/' path.text).dropLast

/-- A path is names with slashes between them, and all names but the last are directories. -/
theorem exists_names (path : Path) :
    ∃ names : List (List Char), path.text.toList = ['/'].intercalate names ∧
      (∀ name ∈ names, '/' ∉ name) ∧ path.directories.map String.toList = names.dropLast := by
  refine ⟨splitAtChar '/' path.text.toList, ?_, fun name => notMem_of_mem_splitAtChar, ?_⟩
  · rw [splitAtChar_eq_splitOn, List.intercalate_splitOn]
  · simp [directories, splitText, Function.comp_def, ← List.map_dropLast]

/-! ## Plain paths -/

namespace IsPlain

variable {path : Path} (plain : path.IsPlain)

include plain

theorem head?_ne_slash : path.text.toList.head? ≠ some '/' := by
  intro slash
  obtain ⟨rest, written⟩ := List.head?_eq_some_iff.mp slash
  unfold IsPlain splitText at plain
  -- The piece in front of a leading slash is empty.
  rw [written, splitAtChar, if_pos rfl] at plain
  exact (plain "" List.mem_cons_self).1 rfl

theorem not_isAbsolute : path.isAbsolute = false :=
  beq_eq_false_iff_ne.mpr plain.head?_ne_slash

theorem start_eq : path.start = [] := by
  rw [start, plain.not_isAbsolute, if_neg Bool.false_ne_true, if_neg]
  intro dot
  have first := List.mem_of_head? (beq_iff_eq.mp dot)
  exact (plain "." first).2.1 rfl

theorem steps_eq : path.steps = (splitText '/' path.text).map .name := by
  have named : ∀ piece ∈ splitText '/' path.text, Part.ofPiece? piece = some (.name piece) := by
    intro piece member
    obtain ⟨filled, here, up⟩ := plain piece member
    rw [Part.ofPiece?] <;> assumption
  rw [steps, List.filterMap_congr named, List.filterMap_eq_map']

theorem ofParts_steps : ofParts path.steps = path := by
  have pieces : (splitText '/' path.text).map String.toList = splitAtChar '/' path.text.toList := by
    simp [splitText, Function.comp_def]
  have joined : "/".intercalate (splitText '/' path.text) = path.text := by
    rw [← String.toList_inj, String.toList_intercalate, pieces, splitAtChar_eq_splitOn]
    exact List.intercalate_splitOn '/'
  have texts : path.steps.map Part.text = splitText '/' path.text := by
    rw [plain.steps_eq, List.map_map]
    exact List.map_id _
  rw [ofParts, texts, joined]
  intro rest rooted
  rw [plain.steps_eq] at rooted
  cases split : splitText '/' path.text <;> simp [split] at rooted

end IsPlain

/-! ## Joined paths -/

theorem join_of_empty {other : Path} (relative : other.isAbsolute = false) :
    (⟨""⟩ : Path).join other = other := by
  simp [join, relative]

/-- A path that is joined to another one comes after a slash, which the other one may end with. -/
theorem exists_front_of_join {base other : Path} (relative : other.isAbsolute = false)
    (written : base.text ≠ "") :
    ∃ front, (base.join other).text.toList = front ++ '/' :: other.text.toList ∧
      (base.text.toList = front ∧ front ≠ [] ∨ base.text.toList = front ++ ['/']) := by
  have filled : base.text.isEmpty = false := by
    simpa using written
  unfold join
  rw [relative, if_neg Bool.false_ne_true, filled, Bool.false_or]
  split
  · rename_i ends
    obtain ⟨front, divided⟩ := List.getLast?_eq_some_iff.mp (beq_iff_eq.mp ends)
    exact ⟨front, by simp [divided], .inr divided⟩
  · exact ⟨base.text.toList, by simp, .inl ⟨rfl, by simpa using written⟩⟩

section Divided

variable {path : Path} {front back : List Char}
  (written : path.text.toList = front ++ '/' :: back)

include written

theorem start_of_divided :
    path.start = if front = [] then [.root] else start ⟨.ofList front⟩ := by
  cases front with
  | nil => simp [start, isAbsolute, written]
  | cons c rest =>
      obtain ⟨first, later, pieces⟩ :=
        List.exists_cons_of_ne_nil (splitAtChar_ne_nil '/' (c :: rest))
      have whole : splitAtChar '/' path.text.toList = first :: (later ++ splitAtChar '/' back) := by
        rw [written, splitAtChar_append, pieces, List.cons_append]
      have absolute : path.isAbsolute = isAbsolute ⟨.ofList (c :: rest)⟩ := by
        simp [isAbsolute, written]
      have head : (splitText '/' path.text).head? =
          (splitText '/' (.ofList (c :: rest))).head? := by
        simp [splitText, whole, pieces]
      rw [if_neg (List.cons_ne_nil c rest), start, start, absolute, head]

theorem steps_of_divided : path.steps = steps ⟨.ofList front⟩ ++ steps ⟨.ofList back⟩ := by
  simp only [steps, splitText, written, String.toList_ofList, splitAtChar_append, List.map_append,
    List.filterMap_append]

end Divided

theorem parts_join (base : Path) {other : Path} (plain : other.IsPlain) :
    (base.join other).parts = base.parts ++ other.steps := by
  have relative := plain.not_isAbsolute
  by_cases empty : base = ⟨""⟩
  · subst empty
    rw [join_of_empty relative, parts_eq, plain.start_eq]
    rfl
  · have written : base.text ≠ "" := fun none => empty (congrArg Path.mk none)
    obtain ⟨front, joined, ⟨rfl, filled⟩ | ended⟩ := exists_front_of_join relative written
    · rw [parts_eq, parts_eq, start_of_divided joined, steps_of_divided joined, if_neg filled]
      simp
    · rw [parts_eq, parts_eq, start_of_divided joined, steps_of_divided joined,
        start_of_divided ended, steps_of_divided ended]
      have nothing : steps ⟨.ofList []⟩ = [] := rfl
      simp [nothing]

/-! ## Seen from a directory -/

theorem dropLeading?_append (base rest : List Part) :
    dropLeading? base (base ++ rest) = some rest := by
  induction base with
  | nil => rfl
  | cons part base ih => rw [List.cons_append, dropLeading?, if_pos rfl, ih]

/-- Whatever has the parts of a plain path behind those of a directory is seen from there as that
path. -/
theorem relativeTo_of_parts {path base other : Path} (plain : other.IsPlain)
    (same : path.parts = (base.join other).parts) : path.relativeTo base = other := by
  rw [parts_join base plain] at same
  rw [relativeTo, relativeTo?, same, dropLeading?_append]
  exact plain.ofParts_steps

end TokenLayout.Path
