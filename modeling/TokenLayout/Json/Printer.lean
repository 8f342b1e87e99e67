import TokenLayout.Json.Value

/-! # Writing JSON

A value is written in one of two styles: compact, without any blank, or pretty, with two blanks of
indent for each level and one blank after a colon. In both, a string escapes only quotes, backslashes
and control characters, and an empty container is written without a blank inside.
-/

namespace TokenLayout.Json

/-- A hexadecimal digit in lower case. -/
def hexDigit (value : Nat) : Char :=
  if value < 10 then Char.ofNat ('0'.toNat + value) else Char.ofNat ('a'.toNat + (value - 10))

/-- How a character is written inside a string literal. -/
def escape (c : Char) : List Char :=
  if c = '"' then ['\\', '"']
  else if c = '\\' then ['\\', '\\']
  else if c = '\x08' then ['\\', 'b']
  else if c = '\x0c' then ['\\', 'f']
  else if c = '\n' then ['\\', 'n']
  else if c = '\r' then ['\\', 'r']
  else if c = '\t' then ['\\', 't']
  else if c.toNat < 0x20 then
    ['\\', 'u', '0', '0', hexDigit (c.toNat / 16), hexDigit (c.toNat % 16)]
  else [c]

/-- A string literal. One that names no text is written as the escape of an unpaired surrogate. -/
def quote : Literal → List Char
  | some text => '"' :: text.toList.flatMap escape ++ ['"']
  | none => "\"\\ud800\"".toList

def scalarText : Scalar → List Char
  | .null => "null".toList
  | .bool true => "true".toList
  | .bool false => "false".toList
  | .natural value => Nat.toDigits 10 value
  | .numeral spelling => spelling.toList
  | .text literal => quote literal

/-- How the lexemes of a value are set apart. -/
inductive Style where
  | compact
  | pretty
  deriving DecidableEq

/-- What stands before an item, a member or a closing bracket of a nesting level. -/
def Style.gap : Style → Nat → List Char
  | compact, _ => []
  | pretty, level => '\n' :: List.replicate (2 * level) ' '

def Style.colon : Style → List Char
  | compact => [':']
  | pretty => [':', ' ']

mutual

/-- The text of a value that stands at a nesting level. -/
def chars (style : Style) (level : Nat) : Json → List Char
  | .scalar value => scalarText value
  | .array [] => ['[', ']']
  | .array (first :: rest) =>
    '[' :: style.gap (level + 1) ++ chars style (level + 1) first ++
      itemChars style (level + 1) rest ++ style.gap level ++ [']']
  | .object [] => ['{', '}']
  | .object ((key, first) :: rest) =>
    '{' :: style.gap (level + 1) ++ quote key ++ style.colon ++ chars style (level + 1) first ++
      memberChars style (level + 1) rest ++ style.gap level ++ ['}']

/-- The items after the first, each with the comma before it. -/
def itemChars (style : Style) (level : Nat) : List Json → List Char
  | [] => []
  | item :: rest =>
    ',' :: style.gap level ++ chars style level item ++ itemChars style level rest

/-- The members after the first, each with the comma before it. -/
def memberChars (style : Style) (level : Nat) : List (Literal × Json) → List Char
  | [] => []
  | (key, value) :: rest =>
    ',' :: style.gap level ++ quote key ++ style.colon ++ chars style level value ++
      memberChars style level rest

end

def write (value : Json) (style : Style) : String :=
  String.ofList (value.chars style 0)

end TokenLayout.Json
