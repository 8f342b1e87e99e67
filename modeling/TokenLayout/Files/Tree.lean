import TokenLayout.Path

/-! # File trees

A file system as a value: directories with their entries, and files with their text. Everything that
looks at files looks at such a tree, so what an analysis finds is a function of it. The entries of a
directory are kept in the order of their names. Nothing is found by a path that is too long as it is
written, even if a shorter one leads to the same place.
-/

namespace TokenLayout

/-- A file, or a directory with its entries in the order of their names. -/
inductive FileTree where
  /-- A file with its text, or `none` if its bytes are no text. -/
  | file (text? : Option String)
  | directory (entries : List (String × FileTree))

namespace FileTree

def empty : FileTree :=
  .directory []

def isDirectory : FileTree → Bool
  | directory _ => true
  | file _ => false

/-- The entries of a directory; a file has none. -/
def entries : FileTree → List (String × FileTree)
  | directory entries => entries
  | file _ => []

/-- Puts an entry at its place in the order, instead of one with the same name. -/
def putEntry (name : String) (tree : FileTree) :
    List (String × FileTree) → List (String × FileTree)
  | [] => [(name, tree)]
  | (other, old) :: rest =>
    if name = other then (name, tree) :: rest
    else if name < other then (name, tree) :: (other, old) :: rest
    else (other, old) :: putEntry name tree rest

/-- Puts a tree at a path of names. Directories on the way are made as needed. -/
def put (tree : FileTree) : List String → FileTree → FileTree
  | [], new => new
  | name :: path, new =>
    let inner := (tree.entries.lookup name).getD empty
    directory (putEntry name (inner.put path new) tree.entries)

end FileTree

/-- A place in a file tree: how it was reached, what is there, and the directories around it. -/
structure Spot where
  path : Path
  tree : FileTree
  /-- The enclosing directories, innermost first. -/
  above : List FileTree

namespace Spot

/-- The root directory of a tree. -/
def root (tree : FileTree) : Spot :=
  ⟨.top, tree, []⟩

/-- Goes one piece of a path further. Only directories can be left through a piece: the empty piece
and `.` stay, `..` goes up, and a name goes to that entry. -/
def step? (spot : Spot) (piece : String) : Option Spot :=
  match spot.tree with
  | .file _ => none
  | .directory entries =>
    let path := spot.path.entry piece
    if piece = "" ∨ piece = "." then some { spot with path }
    else if piece = ".." then
      match spot.above with
      | [] => some { spot with path }
      | outer :: above => some ⟨path, outer, above⟩
    else
      (entries.lookup piece).map fun tree => ⟨path, tree, spot.tree :: spot.above⟩

/-- The entries of a directory as places, in the order of their names. -/
def children (spot : Spot) : List (String × Spot) :=
  spot.tree.entries.map fun (name, tree) =>
    (name, ⟨spot.path.entry name, tree, spot.tree :: spot.above⟩)

end Spot

/-- Everything below a directory, with names: each directory comes before its contents. A directory
whose path is too long is met among the entries of another one, but cannot be listed itself. -/
def FileTree.descendants (path : Path) (above : List FileTree) :
    FileTree → List (Except ReadError (String × Spot))
  | .file _ => []
  | .directory entries =>
    if path.isTooLong then [.error .tooLong] else listed (.directory entries) entries
where
  /-- The given entries of a directory, each with what lies below it. -/
  listed (whole : FileTree) :
      List (String × FileTree) → List (Except ReadError (String × Spot))
    | [] => []
    | (name, tree) :: rest =>
      let entryPath := path.entry name
      .ok (name, ⟨entryPath, tree, whole :: above⟩) ::
        tree.descendants entryPath (whole :: above) ++ listed whole rest

namespace FileTree

/-- What stands at an absolute path; `none` if there is nothing. -/
def find? (tree : FileTree) (path : Path) : Option FileTree :=
  ((splitText '/' path.text).foldlM Spot.step? (Spot.root tree)).map (·.tree)

/-- What stands at a path as seen from a directory. -/
def resolve (tree : FileTree) (current path : Path) : Except ReadError FileTree :=
  if path.isTooLong then .error .tooLong
  else
    match tree.find? (current.join path) with
    | none => .error .missing
    | some found => .ok found

/-- The text of the file at a path as seen from a directory. -/
def read (tree : FileTree) (current path : Path) : Except ReadError String :=
  match tree.resolve current path with
  | .error cause => .error cause
  | .ok (.directory _) => .error .directory
  | .ok (.file none) => .error .notText
  | .ok (.file (some text)) => .ok text

def isFile (tree : FileTree) (current path : Path) : Bool :=
  match tree.resolve current path with
  | .ok (.file _) => true
  | _ => false

end FileTree

end TokenLayout
