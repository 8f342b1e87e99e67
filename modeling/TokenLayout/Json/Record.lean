import TokenLayout.Json.Value
import TokenLayout.Number

/-! # Records in JSON

A record is written as an object with its fields in any order, or as an array of its fields in
their declared order. Members that are no field of the record are passed over, whatever their
value; a field given twice is an error, as is an array with more entries than fields. What a
missing field means is left to the reader of the record.
-/

namespace TokenLayout.Json

variable {α : Type}

/-- How many arrays and objects may be open at once around a value that is read. Values that are
passed over may be nested at will. -/
def nestingLimit : Nat :=
  127

abbrev Fields := List (String × Json)

/-- The members of an object that are fields, in order; `none` if a key names no text. -/
def knownMembers? (names : List String) : List (Literal × Json) → Option Fields
  | [] => some []
  | (none, _) :: _ => none
  | (some key, value) :: rest => do
    let fields ← knownMembers? names rest
    return if key ∈ names then (key, value) :: fields else fields

/-- Reads the fields of a record with the given field names. -/
def fields? (names : List String) : Json → Option Fields
  | .object members => do
    let fields ← knownMembers? names members
    if (fields.map (·.1)).Nodup then some fields else none
  | .array items => if items.length ≤ names.length then some (names.zip items) else none
  | .scalar _ => none

namespace Fields

/-- A field that must be given. -/
def required (fields : Fields) (name : String) (read : Json → Option α) : Option α :=
  (fields.lookup name).bind read

/-- A field that may be left out. -/
def optional (fields : Fields) (name : String) (missing : α) (read : Json → Option α) : Option α :=
  match fields.lookup name with
  | some value => read value
  | none => some missing

end Fields

def text? : Json → Option String
  | .scalar (.text literal) => literal
  | _ => none

def bool? : Json → Option Bool
  | .scalar (.bool value) => some value
  | _ => none

/-- Reads a number, which must have 64 bits. -/
def number? : Json → Option Nat
  | .scalar (.natural value) => if value < wordBound then some value else none
  | _ => none

def items? : Json → Option (List Json)
  | .array items => some items
  | _ => none

/-- Reads a value that may be `null`. -/
def nullable (read : Json → Option α) : Json → Option (Option α)
  | .scalar .null => some none
  | value => (read value).map some

/-- Reads the name of a choice: the name as a text, or as the only key of an object with the value
`null`. -/
def choice? : Json → Option String
  | .scalar (.text literal) => literal
  | .object [(key, .scalar .null)] => key
  | _ => none

end TokenLayout.Json
