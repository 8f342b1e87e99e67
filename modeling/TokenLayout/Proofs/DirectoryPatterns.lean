import TokenLayout.Analysis.Analyzer
import TokenLayout.Proofs.RelativePaths

/-! # Patterns that name a directory

Two tests decide whether a pattern leaves a document out: the pattern matches the path of the
document, or the path contains what is left of the pattern without its double stars. For a pattern
that names a directory both become questions about words between slashes, and a path is nothing but
names with slashes between them. Behind `**/` the word has a slash on either side, so both tests ask
for the directory itself. Without it nothing divides the word from what comes before: the pattern
matches only at the start of the path, but the second test takes every directory whose name ends
with the word.
-/

namespace TokenLayout.Exclusion

/-! ## Words in front of slashes -/

section Words

variable {word name rest : List Char} (free : '/' ∉ word) (apart : '/' ∉ name)

include free apart

theorem prefix_divided_iff : word ++ ['/'] <+: name ++ '/' :: rest ↔ word = name := by
  induction word generalizing name with
  | nil =>
      cases name with
      | nil => simp
      | cons c name =>
          have other : '/' ≠ c := List.ne_of_not_mem_cons apart
          simp [List.cons_prefix_cons, other]
  | cons d word ih =>
      cases name with
      | nil =>
          have other : '/' ≠ d := List.ne_of_not_mem_cons free
          simp [List.cons_prefix_cons, other.symm]
      | cons c name =>
          rw [List.cons_append, List.cons_append, List.cons_prefix_cons, List.cons.injEq,
            ih (List.not_mem_of_not_mem_cons free) (List.not_mem_of_not_mem_cons apart)]

theorem infix_divided_iff :
    word ++ ['/'] <:+: name ++ '/' :: rest ↔ word <:+ name ∨ word ++ ['/'] <:+: rest := by
  induction name with
  | nil =>
      have here : word ++ ['/'] <+: '/' :: rest ↔ word = [] := prefix_divided_iff free apart
      rw [List.nil_append, List.infix_cons_iff, here, List.suffix_nil]
  | cons c name ih =>
      have here : word ++ ['/'] <+: c :: (name ++ '/' :: rest) ↔ word = c :: name :=
        prefix_divided_iff free apart
      rw [List.cons_append, List.infix_cons_iff, here,
        ih (List.not_mem_of_not_mem_cons apart), List.suffix_cons_iff, or_assoc]

omit free in
/-- What starts with a slash does not start inside a name. -/
theorem slash_infix_iff {part : List Char} :
    '/' :: part <:+: name ++ rest ↔ '/' :: part <:+: rest := by
  induction name with
  | nil => rfl
  | cons c name ih =>
      have other : '/' ≠ c := List.ne_of_not_mem_cons apart
      rw [List.cons_append, List.infix_cons_iff, List.cons_prefix_cons,
        ih (List.not_mem_of_not_mem_cons apart)]
      simp [other]

theorem enclosed_divided_iff :
    '/' :: (word ++ ['/']) <:+: '/' :: (name ++ '/' :: rest) ↔
      word = name ∨ '/' :: (word ++ ['/']) <:+: '/' :: rest := by
  rw [List.infix_cons_iff, List.cons_prefix_cons, prefix_divided_iff free apart,
    slash_infix_iff apart]
  simp

end Words

/-! ## Words in a path -/

theorem intercalate_divided (name next : List Char) (more : List (List Char)) :
    ['/'].intercalate (name :: next :: more) =
      name ++ '/' :: ['/'].intercalate (next :: more) := by
  simp [List.intercalate_cons_cons]

section Names

variable {word : List Char} {names : List (List Char)} (free : '/' ∉ word)
  (apart : ∀ name ∈ names, '/' ∉ name)

include free apart

theorem prefix_names_iff :
    word ++ ['/'] <+: ['/'].intercalate names ↔ names.dropLast.head? = some word := by
  cases names with
  | nil => simp
  | cons name names =>
      rw [List.forall_mem_cons] at apart
      cases names with
      | nil =>
          have absent : ¬ word ++ ['/'] <+: name := fun front => apart.1 (front.subset (by simp))
          simp [absent]
      | cons next more =>
          rw [intercalate_divided, prefix_divided_iff free apart.1, List.dropLast_cons_cons,
            List.head?_cons, Option.some.injEq, eq_comm]

theorem infix_names_iff :
    word ++ ['/'] <:+: ['/'].intercalate names ↔ ∃ name ∈ names.dropLast, word <:+ name := by
  induction names with
  | nil => simp
  | cons name names ih =>
      rw [List.forall_mem_cons] at apart
      cases names with
      | nil =>
          have absent : ¬ word ++ ['/'] <:+: name := fun inside => apart.1 (inside.subset (by simp))
          simp [absent]
      | cons next more =>
          rw [intercalate_divided, infix_divided_iff free apart.1, ih apart.2,
            List.dropLast_cons_cons, List.exists_mem_cons_iff]

theorem enclosed_names_iff :
    '/' :: (word ++ ['/']) <:+: '/' :: ['/'].intercalate names ↔ word ∈ names.dropLast := by
  induction names with
  | nil =>
      have short : ¬ '/' :: (word ++ ['/']) <:+: ['/'] := by
        intro inside
        simpa using inside.length_le
      simpa using short
  | cons name names ih =>
      rw [List.forall_mem_cons] at apart
      cases names with
      | nil =>
          have absent : ¬ '/' :: (word ++ ['/']) <:+: '/' :: name := by
            rw [List.infix_cons_iff, List.cons_prefix_cons]
            rintro (⟨-, front⟩ | inside)
            · exact apart.1 (front.subset (by simp))
            · exact apart.1 (inside.subset (by simp))
          simpa using absent
      | cons next more =>
          rw [intercalate_divided, enclosed_divided_iff free apart.1, ih apart.2,
            List.dropLast_cons_cons, List.mem_cons]

end Names

/-! ## Reading the patterns -/

section Reading

open Pattern

/-- A name that a pattern takes literally. -/
def IsName (name : String) : Prop :=
  name ≠ "" ∧ ∀ c ∈ name.toList, c ∉ ['/', '*', '?', '[', ']']

instance (name : String) : Decidable (IsName name) :=
  @instDecidableAnd _ _ _ (List.decidableBAll _ name.toList)

theorem read?_char {start : Bool} {c : Char} {rest : List Char} (literal : c ∉ ['*', '?', '[']) :
    read? start (c :: rest) = (read? (c == '/') rest).map (.char c :: ·) := by
  simp only [List.mem_cons, List.not_mem_nil, or_false, not_or] at literal
  obtain ⟨star, question, bracket⟩ := literal
  rw [read?] <;> simp_all

theorem read?_word {start : Bool} {word rest : List Char}
    (literal : ∀ c ∈ word, c ∉ ['/', '*', '?', '[', ']']) :
    read? start (word ++ '/' :: rest) =
      (read? true rest).map ((word ++ ['/']).map Glob.char ++ ·) := by
  induction word generalizing start with
  | nil => exact read?_char (by decide)
  | cons c word ih =>
      rw [List.forall_mem_cons] at literal
      have plain : c ∉ ['*', '?', '['] := by
        have := literal.1
        simp_all
      rw [List.cons_append, read?_char plain, ih literal.2, Option.map_map]
      rfl

theorem read?_anyDirectories (rest : List Char) :
    read? true ('*' :: '*' :: '/' :: rest) = (read? true rest).map (.anyDirectories :: ·) := by
  rw [read?]
  simp

theorem read?_anything : read? true ['*', '*'] = some [.anyDirectories] := by
  rw [read?]
  simp

theorem parse?_anywhere {name : String} (named : IsName name) :
    parse? ("**/" ++ name ++ "/**") =
      some (.anyDirectories :: ((name.toList ++ ['/']).map .char ++ [.anyDirectories])) := by
  have written : ("**/" ++ name ++ "/**").toList =
      '*' :: '*' :: '/' :: (name.toList ++ '/' :: ['*', '*']) := by
    simp
  rw [parse?, written, read?_anyDirectories, read?_word named.2, read?_anything]
  rfl

theorem parse?_leading {name : String} (named : IsName name) :
    parse? (name ++ "/**") = some ((name.toList ++ ['/']).map .char ++ [.anyDirectories]) := by
  have written : (name ++ "/**").toList = name.toList ++ '/' :: ['*', '*'] := by
    simp
  rw [parse?, written, read?_word named.2, read?_anything]
  rfl

end Reading

/-! ## Matching the patterns -/

section Matching

open Pattern

variable {word : List Char}

theorem accept_anything (text : List Char) : accept [.anyDirectories] text = true := by
  have empty : [] ∈ endsAfterSlash text := by
    induction text with
    | nil => exact List.mem_cons_self
    | cons c rest ih =>
        rw [endsAfterSlash]
        split
        · exact List.mem_cons_of_mem rest ih
        · exact ih
  rw [accept, Bool.or_eq_true, List.any_eq_true]
  exact .inr ⟨[], empty, rfl⟩

theorem accept_word (text : List Char) :
    accept (word.map .char ++ [.anyDirectories]) text = true ↔ word <+: text := by
  induction word generalizing text with
  | nil => simp [accept_anything]
  | cons d word ih =>
      cases text with
      | nil => simp [accept]
      | cons c text =>
          rw [List.map_cons, List.cons_append, accept, Bool.and_eq_true, ih,
            List.cons_prefix_cons, accepts, beq_iff_eq, eq_comm]
          all_goals simp

theorem any_endsAfterSlash (filled : word ≠ []) (text : List Char) :
    (endsAfterSlash text).any (accept (word.map .char ++ [.anyDirectories])) = true ↔
      '/' :: word <:+: text := by
  induction text with
  | nil => simp [endsAfterSlash, accept_word, filled]
  | cons c rest ih =>
      rw [List.infix_cons_iff, List.cons_prefix_cons, endsAfterSlash]
      split
      · rename_i slash
        rw [List.any_cons, Bool.or_eq_true, accept_word, ih]
        simp [slash]
      · rename_i other
        rw [ih]
        simp [Ne.symm other]

theorem accept_anywhere (filled : word ≠ []) (text : List Char) :
    accept (.anyDirectories :: (word.map .char ++ [.anyDirectories])) text = true ↔
      '/' :: word <:+: '/' :: text := by
  rw [accept, Bool.or_eq_true, accept_word, any_endsAfterSlash filled, List.infix_cons_iff,
    List.cons_prefix_cons]
  simp

end Matching

/-! ## Containing what is left of the patterns -/

theorem contains_iff {part text : List Char} : contains part text = true ↔ part <:+: text := by
  induction text with
  | nil => simp [contains]
  | cons c rest ih =>
      rw [contains, Bool.or_eq_true, List.isPrefixOf_iff_prefix, ih, List.infix_cons_iff]

theorem withoutDoubleStars_end {front : List Char} (free : '*' ∉ front) :
    withoutDoubleStars (front ++ ['*', '*']) = front := by
  induction front with
  | nil => rfl
  | cons c front ih =>
      have other : '*' ≠ c := List.ne_of_not_mem_cons free
      rw [List.cons_append, withoutDoubleStars, ih (List.not_mem_of_not_mem_cons free)]
      intro left same
      exact absurd same.symm other

theorem anchored_of_plain {path : Path} (plain : path.IsPlain) :
    anchored path = '/' :: path.text.toList := by
  have first := plain.head?_ne_slash
  unfold anchored
  cases written : path.text.toList with
  | nil => rfl
  | cons c rest =>
      have other : c ≠ '/' := by simpa [written] using first
      simp [other]

theorem containsRest_iff {pattern : String} {path : Path} {rest : List Char}
    (plain : path.IsPlain) (left : withoutDoubleStars pattern.toList = rest) (filled : rest ≠ []) :
    containsRest pattern path = true ↔ rest <:+: '/' :: path.text.toList := by
  rw [containsRest, left, Bool.and_eq_true, contains_iff, anchored_of_plain plain]
  simp [filled]

/-! ## What the tests ask for -/

theorem mem_directories_iff {name : String} {path : Path} :
    name ∈ path.directories ↔ name.toList ∈ path.directories.map String.toList := by
  simp [String.toList_inj]

section Tests

variable {name : String} (named : IsName name)

include named

theorem IsName.slash_notMem : '/' ∉ name.toList :=
  fun member => named.2 '/' member (by decide)

theorem IsName.star_notMem : '*' ∉ name.toList :=
  fun member => named.2 '*' member (by decide)

theorem matchesPath_anywhere_iff (path : Path) :
    matchesPath ("**/" ++ name ++ "/**") path = true ↔ name ∈ path.directories := by
  obtain ⟨names, written, apart, directories⟩ := path.exists_names
  rw [matchesPath, parse?_anywhere named, Option.any_some, Pattern.matchesText_eq,
    accept_anywhere (by simp), written, enclosed_names_iff named.slash_notMem apart,
    mem_directories_iff, directories]

theorem containsRest_anywhere_iff {path : Path} (plain : path.IsPlain) :
    containsRest ("**/" ++ name ++ "/**") path = true ↔ name ∈ path.directories := by
  have stars : '*' ∉ '/' :: (name.toList ++ ['/']) := by
    simp [named.star_notMem]
  have left : withoutDoubleStars ("**/" ++ name ++ "/**").toList =
      '/' :: (name.toList ++ ['/']) := by
    simpa [withoutDoubleStars] using withoutDoubleStars_end stars
  obtain ⟨names, written, apart, directories⟩ := path.exists_names
  rw [containsRest_iff plain left (List.cons_ne_nil _ _), written,
    enclosed_names_iff named.slash_notMem apart, mem_directories_iff, directories]

theorem matchesPath_leading_iff (path : Path) :
    matchesPath (name ++ "/**") path = true ↔ path.directories.head? = some name := by
  obtain ⟨names, written, apart, directories⟩ := path.exists_names
  rw [matchesPath, parse?_leading named, Option.any_some, Pattern.matchesText_eq, accept_word,
    written, prefix_names_iff named.slash_notMem apart, ← directories, List.head?_map]
  cases path.directories.head? <;> simp [String.toList_inj]

theorem containsRest_leading_iff {path : Path} (plain : path.IsPlain) :
    containsRest (name ++ "/**") path = true ↔
      ∃ directory ∈ path.directories, name.toList <:+ directory.toList := by
  have stars : '*' ∉ name.toList ++ ['/'] := by
    simp [named.star_notMem]
  have left : withoutDoubleStars (name ++ "/**").toList = name.toList ++ ['/'] := by
    simpa using withoutDoubleStars_end stars
  have filled : name.toList ≠ [] := by simpa using named.1
  obtain ⟨names, written, apart, directories⟩ := path.exists_names
  -- The slash in front of the path is no part of the word.
  have anchor : name.toList ++ ['/'] <:+: '/' :: ['/'].intercalate names ↔
      name.toList <:+ [] ∨ name.toList ++ ['/'] <:+: ['/'].intercalate names :=
    infix_divided_iff named.slash_notMem List.not_mem_nil
  rw [containsRest_iff plain left (by simp), written, anchor, List.suffix_nil,
    or_iff_right filled, infix_names_iff named.slash_notMem apart, ← directories]
  simp

end Tests

end TokenLayout.Exclusion

namespace TokenLayout.Analyzer

open Exclusion

theorem leavesOut_join {analyzer : Analyzer} {page : Path} {pattern : String}
    (plain : page.IsPlain) (only : analyzer.exclude = [pattern]) :
    analyzer.leavesOut (analyzer.root.join page) = true ↔
      matchesPath pattern page = true ∨ containsRest pattern page = true := by
  rw [leavesOut, excludes, only, Path.relativeTo_of_parts plain rfl]
  simp

/-- The pattern of a directory at any depth leaves out the documents below such directories and no
others, and either test alone would do. -/
theorem leavesOut_anywhere_iff (analyzer : Analyzer) (name : String) (page : Path)
    (named : IsName name) (plain : page.IsPlain)
    (only : analyzer.exclude = ["**/" ++ name ++ "/**"]) :
    let seen := (analyzer.root.join page).relativeTo analyzer.root
    (analyzer.leavesOut (analyzer.root.join page) = true ↔ name ∈ page.directories) ∧
      (matchesPath ("**/" ++ name ++ "/**") seen = true ↔ name ∈ page.directories) ∧
      (containsRest ("**/" ++ name ++ "/**") seen = true ↔ name ∈ page.directories) := by
  intro seen
  have same : seen = page := Path.relativeTo_of_parts plain rfl
  have matched := matchesPath_anywhere_iff named page
  have contained := containsRest_anywhere_iff named plain
  rw [same, leavesOut_join plain only, matched, contained, or_self]
  exact ⟨.rfl, .rfl, .rfl⟩

/-- Below a root that lies in a directory of the same name: one document in such a directory, and
one whose directories only have longer names. -/
theorem leavesOut_anywhere_iff_target :
    let analyzer : Analyzer :=
      ⟨⟨"/target/./work//"⟩, [.layout], ["**/target/**"], .default, .default, false⟩
    analyzer.leavesOut (analyzer.root.join ⟨"a/target/b/x.tokens.json"⟩) = true ∧
      analyzer.leavesOut (analyzer.root.join ⟨"my-target/targets/target"⟩) = false := by
  intro analyzer
  have named : IsName "target" := by decide
  have inside := leavesOut_anywhere_iff analyzer "target" ⟨"a/target/b/x.tokens.json"⟩ named
    (by decide) rfl
  have outside := leavesOut_anywhere_iff analyzer "target" ⟨"my-target/targets/target"⟩ named
    (by decide) rfl
  exact ⟨inside.1.mpr (by decide), Bool.eq_false_iff.mpr (mt outside.1.mp (by decide))⟩

/-- The pattern of a directory at the root leaves out every document below a directory whose name
ends with the given one. The pattern itself matches only below that directory at the root; it is the
second test that takes longer names, at any depth. -/
theorem leavesOut_leading_iff (analyzer : Analyzer) (name : String) (page : Path)
    (named : IsName name) (plain : page.IsPlain) (only : analyzer.exclude = [name ++ "/**"]) :
    let seen := (analyzer.root.join page).relativeTo analyzer.root
    (analyzer.leavesOut (analyzer.root.join page) = true ↔
        ∃ directory ∈ page.directories, name.toList <:+ directory.toList) ∧
      (matchesPath (name ++ "/**") seen = true ↔ page.directories.head? = some name) ∧
      (containsRest (name ++ "/**") seen = true ↔
        ∃ directory ∈ page.directories, name.toList <:+ directory.toList) := by
  intro seen
  have same : seen = page := Path.relativeTo_of_parts plain rfl
  have matched := matchesPath_leading_iff named page
  have contained := containsRest_leading_iff named plain
  rw [same, leavesOut_join plain only, matched, contained]
  refine ⟨or_iff_right_of_imp ?_, .rfl, .rfl⟩
  intro leads
  exact ⟨name, List.mem_of_head? leads, List.suffix_rfl⟩

theorem leavesOut_leading_iff_nested :
    let analyzer : Analyzer := ⟨⟨"/r"⟩, [.layout], ["out/**"], .default, .default, false⟩
    analyzer.leavesOut (analyzer.root.join ⟨"src/layout/x.tokens.json"⟩) = true ∧
      analyzer.leavesOut (analyzer.root.join ⟨"src/outer/out"⟩) = false := by
  intro analyzer
  have named : IsName "out" := by decide
  have inside := leavesOut_leading_iff analyzer "out" ⟨"src/layout/x.tokens.json"⟩ named
    (by decide) rfl
  have outside := leavesOut_leading_iff analyzer "out" ⟨"src/outer/out"⟩ named (by decide) rfl
  exact ⟨inside.1.mpr (by decide), Bool.eq_false_iff.mpr (mt outside.1.mp (by decide))⟩

/-- A document is left out although none of its directories has the name in the pattern. -/
theorem leavesOut_of_longer_name :
    let analyzer : Analyzer := ⟨⟨"/r"⟩, [.layout], ["out/**"], .default, .default, false⟩
    let page : Path := ⟨"layout/page.tokens.json"⟩
    IsName "out" ∧ page.IsPlain ∧ "out" ∉ page.directories ∧
      analyzer.leavesOut (analyzer.root.join page) = true := by
  decide +kernel

end TokenLayout.Analyzer
