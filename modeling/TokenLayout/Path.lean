import TokenLayout.Text

/-! # Paths

A path is kept as it is written; what it means is given by its parts. Repeated dividers and the
part `.` mean nothing, except that a path may start with `.`; the part `..` is kept. Paths are
compared and ordered by their parts. At the end stands why nothing can be read at a path.
-/

namespace TokenLayout

/-- A path as it is written. -/
structure Path where
  text : String
  deriving DecidableEq

namespace Path

inductive Part where
  | root
  | here
  | up
  | name (text : String)
  deriving DecidableEq

namespace Part

def text : Part → String
  | root => "/"
  | here => "."
  | up => ".."
  | name text => text

/-- Position in the order of the kinds of parts. -/
def rank : Part → Nat
  | root => 0
  | here => 1
  | up => 2
  | name _ => 3

/-- Compares parts: by kind, and names as texts. -/
def compare : Part → Part → Ordering
  | name a, name b => Ord.compare a b
  | a, b => Ord.compare a.rank b.rank

/-- The part that a piece between dividers stands for, after the first piece. -/
def ofPiece? : String → Option Part
  | "" => none
  | "." => none
  | ".." => some up
  | text => some (name text)

end Part

def top : Path :=
  ⟨"/"⟩

/-- The number of bytes up to which a file system takes a path. -/
def maximumSize : Nat :=
  4095

/-- Is the path, as it is written, longer than a file system takes? -/
def isTooLong (path : Path) : Bool :=
  maximumSize < path.text.utf8ByteSize

def isAbsolute (path : Path) : Bool :=
  path.text.toList.head? == some '/'

def parts (path : Path) : List Part :=
  let pieces := splitText '/' path.text
  let start :=
    if path.isAbsolute then [Part.root]
    else if pieces.head? == some "." then [Part.here]
    else []
  start ++ pieces.filterMap Part.ofPiece?

/-- The path that `other` is, seen from `base`: an absolute path stays as it is. -/
def join (base other : Path) : Path :=
  if other.isAbsolute then other
  else if base.text.isEmpty || base.text.toList.getLast? == some '/' then
    ⟨base.text ++ other.text⟩
  else ⟨base.text ++ "/" ++ other.text⟩

def entry (base : Path) (name : String) : Path :=
  base.join ⟨name⟩

/-- The path with the given parts, which are divided by single slashes. -/
def ofParts : List Part → Path
  | .root :: rest => ⟨Part.root.text ++ "/".intercalate (rest.map Part.text)⟩
  | parts => ⟨"/".intercalate (parts.map Part.text)⟩

/-- The rest of a list after a leading part; `none` if it does not start that way. -/
def dropLeading? : List Part → List Part → Option (List Part)
  | [], rest => some rest
  | _ :: _, [] => none
  | a :: base, b :: rest => if a = b then dropLeading? base rest else none

/-- The path seen from a directory that it lies under, part by part. -/
def relativeTo? (path base : Path) : Option Path :=
  (dropLeading? base.parts path.parts).map ofParts

/-- The path seen from `base`, or as it is if it does not lie under it. -/
def relativeTo (path base : Path) : Path :=
  (path.relativeTo? base).getD path

/-- The names that lead from the root directory to an absolute path; `..` takes back the name before
it. -/
def names (path : Path) : List String :=
  path.parts.foldl
    (fun names part =>
      match part with
      | .name text => names ++ [text]
      | .up => names.dropLast
      | _ => names)
    []

def compareParts : List Part → List Part → Ordering
  | [], [] => .eq
  | [], _ :: _ => .lt
  | _ :: _, [] => .gt
  | a :: as, b :: bs => (a.compare b).then (compareParts as bs)

/-- Compares paths by their parts. -/
def compare (a b : Path) : Ordering :=
  compareParts a.parts b.parts

end Path

/-- Why a file cannot be read as a text, or a directory cannot be listed. -/
inductive ReadError where
  | missing
  | directory
  | notText
  | tooLong
  deriving DecidableEq

def ReadError.message : ReadError → String
  | missing => "No such file or directory (os error 2)"
  | directory => "Is a directory (os error 21)"
  | notText => "stream did not contain valid UTF-8"
  | tooLong => "File name too long (os error 36)"

end TokenLayout
