/-! # JSON values

A JSON value as its text spells it. Two things are kept that a plain data model would lose,
because readers of records depend on them: a number that is not written as a natural number keeps
its spelling, and an object keeps repeated keys and the order of its members.
-/

namespace TokenLayout

/-- The text that a JSON string literal names, or `none` when the literal holds the escape of an
unpaired surrogate and so names no text. -/
abbrev Literal := Option String

/-- A JSON value that holds no others. -/
inductive Scalar where
  | null
  | bool (value : Bool)
  /-- A number written with digits only. -/
  | natural (value : Nat)
  /-- Any other number, as it is spelled. -/
  | numeral (spelling : String)
  | text (literal : Literal)
  deriving DecidableEq

inductive Json where
  | scalar (value : Scalar)
  | array (items : List Json)
  | object (members : List (Literal × Json))

namespace Json

def text (value : String) : Json :=
  .scalar (.text (some value))

def natural (value : Nat) : Json :=
  .scalar (.natural value)

def bool (value : Bool) : Json :=
  .scalar (.bool value)

/-- The JSON form of a record: an object with the given fields. -/
def record (fields : List (String × Json)) : Json :=
  .object (fields.map fun (name, value) => (some name, value))

end Json

end TokenLayout
