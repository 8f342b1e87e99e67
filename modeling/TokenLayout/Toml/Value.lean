/-! # TOML values

The data of a TOML text. Floating-point numbers and date-times are kept as texts: nothing in this
library computes with them, but a text that misspells one must be refused.
-/

namespace TokenLayout

/-- A TOML value. Floating-point numbers stay as they are spelled, date-times are in their standard
form, and the entries of a table stand in the order of the text. -/
inductive Toml where
  | boolean (value : Bool)
  | integer (value : Int)
  | float (spelling : String)
  | string (text : String)
  | dateTime (text : String)
  | array (items : List Toml)
  | table (entries : List (String × Toml))

namespace Toml

/-- The key under which a date-time shows its text where a table is wanted. -/
def dateTimeKey : String :=
  "$__toml_private_datetime"

def bool? : Toml → Option Bool
  | .boolean value => some value
  | _ => none

def int? : Toml → Option Int
  | .integer value => some value
  | _ => none

def text? : Toml → Option String
  | .string text => some text
  | _ => none

def items? : Toml → Option (List Toml)
  | .array items => some items
  | _ => none

def texts? (value : Toml) : Option (List String) :=
  value.items?.bind (·.mapM text?)

/-- Reads the entries of a table. A date-time counts as a table of one entry, its text. -/
def entries? : Toml → Option (List (String × Toml))
  | .table entries => some entries
  | .dateTime text => some [(dateTimeKey, .string text)]
  | _ => none

/-- Reads the fields of a record: a table with them as entries, or an array of them in their
declared order. Entries that are no field are passed over. -/
def fields? (names : List String) : Toml → Option (List (String × Toml))
  | .array items => some (names.zip items)
  | value => value.entries?

/-- Reads the name of a choice: the name as a text, or as the only key of a table whose value is
empty. -/
def choice? : Toml → Option String
  | .string name => some name
  | .table [(name, .array [])] => some name
  | .table [(name, .table [])] => some name
  | _ => none

end Toml

end TokenLayout
