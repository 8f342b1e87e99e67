import TokenLayout.Toml.Number
import TokenLayout.Toml.Tables

/-! # Reading TOML

Values, statements and whole texts. Arrays and inline tables may be nested less than `depthLimit`
deep, which also bounds the recursion of the reader.
-/

namespace TokenLayout.Toml

namespace Read

open Scan

/-- Takes an array, given how to take its items. -/
def arrayOf (item : Scan Toml) : Scan Toml := do
  char '['
  let entry := do
    layout
    let value ← item
    layout
    return value
  let items ← option (divided entry (char ','))
  if items.isSome then
    let _ ← option (char ',')
  layout
  char ']'
  return .array (items.getD [])

/-- Takes an inline table, given how to take its values. -/
def inlineTableOf (item : Scan Toml) : Scan Toml := do
  char '{'
  let entry := do
    let (path, name) ← key
    char '='
    spaces
    let value ← item
    spaces
    return Statement.assign path name value
  let entries ← option (divided entry (char ','))
  spaces
  char '}'
  match assemble? (entries.getD []) with
  | some built => return .table built
  | none => failure

/-- Takes a value that holds no others. -/
def scalar : Scan Toml :=
  (Toml.string <$> anyString) <|>
  (Toml.dateTime <$> dateTime) <|>
  (Toml.float <$> float) <|>
  (Toml.integer <$> integer) <|>
  (do word "true"; return .boolean true) <|>
  (do word "false"; return .boolean false)

/-- Takes a value in which containers may be nested `depth` deep. -/
def value : Nat → Scan Toml
  | 0 => scalar
  | depth + 1 => scalar <|> arrayOf (value depth) <|> inlineTableOf (value depth)

def statement : Scan Statement :=
  (do char '['
      char '['
      let (path, name) ← key
      char ']'
      char ']'
      lineEnd
      return .elementHeader path name) <|>
  (do char '['
      let (path, name) ← key
      char ']'
      lineEnd
      return .tableHeader path name) <|>
  (do let (path, name) ← key
      char '='
      spaces
      let value ← value (depthLimit - 1)
      lineEnd
      return .assign path name value)

/-- Takes a whole text: statements, comments and empty lines. A byte order mark may come first. -/
def document : Scan (List Statement) := do
  let _ ← option (one (·.toNat == 0xFEFF))
  layout
  let statements ← many do
    let next ← statement
    layout
    return next
  atEnd
  return statements

end Read

/-- The entries of the outermost table of a text; `none` for a text that is not TOML. -/
def parse? (text : String) : Option (List (String × Toml)) := do
  let (statements, _) ← Read.document text.toList
  assemble? statements

end TokenLayout.Toml
