import TokenLayout.Toml.Value

/-! # Putting tables together

A TOML text builds its tables piece by piece, from keys with dots and from headers. How a table came
to be decides what may still be added to it: a table with a header of its own takes no second header
and no keys with dots from outside; one made by keys with dots takes no header; one that is only
implied by the header of an inner table may still get a header of its own.
-/

namespace TokenLayout.Toml

/-- How a table came to be. -/
inductive Origin where
  | header
  /-- By the header of a table inside it. -/
  | implied
  /-- By a key with dots. -/
  | dotted
  deriving DecidableEq

/-- An entry of a table under construction, which holds its own entries the newest first. -/
inductive Slot where
  | value (value : Toml)
  | table (origin : Origin) (newest : List (String × Slot))
  /-- An array of tables, the newest first, which is the one under construction. -/
  | elements (newest : List (List (String × Slot)))

/-- The entries of a table under construction, the newest first. -/
abbrev Slots := List (String × Slot)

namespace Slots

def replace (slots : Slots) (key : String) (slot : Slot) : Slots :=
  slots.map fun entry => if entry.1 == key then (key, slot) else entry

def remove (slots : Slots) (key : String) : Slots :=
  slots.filter fun entry => entry.1 != key

def add (slots : Slots) (key : String) (slot : Slot) : Slots :=
  (key, slot) :: slots

/-- Sets a value at a key with dots. Tables on the way are made as needed; the table that takes the
value must have been made by keys with dots, unless it is the one the key starts from. -/
def assign (slots : Slots) (accepts : Bool) (key : String) (value : Toml) :
    List String → Option Slots
  | [] =>
    if accepts && (slots.lookup key).isNone then some (slots.add key (.value value)) else none
  | step :: path =>
    match slots.lookup step with
    | none => do
      let inner ← assign [] true key value path
      return slots.add step (.table .dotted inner)
    | some (.table .header _) => none
    | some (.table origin inner) => do
      let inner ← assign inner (origin == .dotted) key value path
      return slots.replace step (.table origin inner)
    | some (.elements tables) => do
      let inner ← assign (tables.headD []) false key value path
      return slots.replace step (.elements (inner :: tables.tail))
    | some (.value _) => none

/-- Changes the table at the path of a header. Tables on the way are made as needed, and an array of
tables is entered at its newest table. -/
def modifyAt (change : Slots → Option Slots) (slots : Slots) : List String → Option Slots
  | [] => change slots
  | step :: path =>
    match slots.lookup step with
    | none => do
      let inner ← modifyAt change [] path
      return slots.add step (.table .implied inner)
    | some (.table origin inner) => do
      let inner ← modifyAt change inner path
      return slots.replace step (.table origin inner)
    | some (.elements tables) => do
      let inner ← modifyAt change (tables.headD []) path
      return slots.replace step (.elements (inner :: tables.tail))
    | some (.value _) => none

/-- Starts the table of a header. One that was only implied so far moves to the end. -/
def startTable (key : String) (slots : Slots) : Option Slots :=
  match slots.lookup key with
  | none => some (slots.add key (.table .header []))
  | some (.table .implied inner) => some ((slots.remove key).add key (.table .header inner))
  | _ => none

/-- Starts the next table of an array of tables. -/
def startElement (key : String) (slots : Slots) : Option Slots :=
  match slots.lookup key with
  | none => some (slots.add key (.elements [[]]))
  | some (.elements tables) => some (slots.replace key (.elements ([] :: tables)))
  | _ => none

end Slots

mutual

def Slot.finish : Slot → Toml
  | .value value => value
  | .table _ newest => .table (finishEntries [] newest)
  | .elements newest => .array (finishTables [] newest)

/-- The entries of a finished table in order, before those that are finished already. -/
def finishEntries (later : List (String × Toml)) : List (String × Slot) → List (String × Toml)
  | [] => later
  | (key, slot) :: earlier => finishEntries ((key, slot.finish) :: later) earlier

/-- The tables of a finished array in order, before those that are finished already. -/
def finishTables (later : List Toml) : List (List (String × Slot)) → List Toml
  | [] => later
  | newest :: earlier => finishTables (.table (finishEntries [] newest) :: later) earlier

end

inductive Statement where
  | assign (path : List String) (key : String) (value : Toml)
  | tableHeader (path : List String) (key : String)
  | elementHeader (path : List String) (key : String)

/-- The tables so far, and the path of the table that statements add to. -/
structure Assembly where
  root : Slots
  current : List String

namespace Assembly

def step (assembly : Assembly) : Statement → Option Assembly
  | .assign path key value => do
    let root ← assembly.root.modifyAt (·.assign true key value path) assembly.current
    return { assembly with root }
  | .tableHeader path key => do
    let root ← assembly.root.modifyAt (Slots.startTable key) path
    return ⟨root, path ++ [key]⟩
  | .elementHeader path key => do
    let root ← assembly.root.modifyAt (Slots.startElement key) path
    return ⟨root, path ++ [key]⟩

end Assembly

/-- The table that statements build; `none` if one of them is not allowed. -/
def assemble? (statements : List Statement) : Option (List (String × Toml)) :=
  (statements.foldlM Assembly.step ⟨[], []⟩).map fun assembly => finishEntries [] assembly.root

end TokenLayout.Toml
