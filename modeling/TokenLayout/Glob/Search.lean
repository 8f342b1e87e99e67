import TokenLayout.Files.Tree
import TokenLayout.Glob.Pattern

/-! # Searching a file tree

A search follows a pattern part by part from the root directory. A part without wildcards goes to
the one entry it names, which need not be listed in its directory, so `.` and `..` work as in a
path. Other parts go to the entries whose names they match, in the order of the names; `**` goes to
everything below, each directory before its contents. A search goes on beside a directory that
cannot be listed, so what it finds is a list of outcomes.
-/

namespace TokenLayout

namespace Spot

/-- Goes to the entry that a part without wildcards names, if its path is not too long. -/
def goTo? (spot : Spot) (name : String) : Option Spot :=
  (spot.step? name).filter fun next => !next.path.isTooLong

/-- The entries of a directory that a part with wildcards leads to. A part that starts with a dot
may also match the entries for the directory itself and the one above, which come first, the one
above before the other. -/
def matching (spot : Spot) (pattern : Pattern) : List (Except ReadError Spot) :=
  if !spot.tree.isDirectory then []
  else if spot.path.isTooLong then [.error .tooLong]
  else
    let special :=
      if pattern.head? == some (.char '.') then
        [".", ".."].reverse.filter pattern.matchesText
      else []
    let named := (spot.children.filter fun (name, _) => pattern.matchesText name).map (·.2)
    (special.filterMap spot.goTo? ++ named).map .ok

/-- The paths that the parts of a pattern lead to. -/
def search (spot : Spot) : List Pattern → List (Except ReadError Path)
  | [] => [.ok spot.path]
  | part :: rest =>
    match part.literal? with
    | some name => ((spot.goTo? name).map (search · rest)).getD []
    | none =>
      if part.isRecursive then
        match rest with
        | [] =>
          (spot.tree.descendants spot.path spot.above).flatMap fun
            | .error cause => [.error cause]
            | .ok (_, found) => if found.tree.isDirectory then [.ok found.path] else []
        | next :: after =>
          if next.isRecursive then search spot (next :: after)
          else
            (spot.tree.descendants spot.path spot.above).flatMap fun
              | .error cause => [.error cause]
              | .ok (name, found) => if next.matchesText name then search found after else []
      else
        (spot.matching part).flatMap fun
          | .error cause => [.error cause]
          | .ok found => search found rest

end Spot

namespace FileTree

/-- The parts of a pattern for absolute paths, after the slash it starts with; `none` if the whole
or a part is no pattern. -/
def patternParts? (text : String) : Option (List Pattern) := do
  let _ ← Pattern.parse? text
  ((splitText '/' text).drop 1).mapM Pattern.parse?

/-- The paths in a tree that a pattern for absolute paths matches, in the order of their parts;
`none` if it is no pattern. -/
def glob? (tree : FileTree) (text : String) : Option (List (Except ReadError Path)) := do
  let parts ← patternParts? text
  return (Spot.root tree).search parts

end FileTree

end TokenLayout
