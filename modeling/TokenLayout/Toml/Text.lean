import TokenLayout.Number
import TokenLayout.Toml.Scan

/-! # Strings, keys and blanks of TOML

The four kinds of strings, the keys made of them, and what may stand between values. A line ends
with `\n` or `\r\n`; a bare `\r` and other control characters are refused everywhere.
-/

namespace TokenLayout.Toml.Read

open Scan

/-- May the character stand for itself in strings and comments? -/
def isPlain (c : Char) : Bool :=
  c == '\t' || (0x20 ≤ c.toNat && c.toNat != 0x7F)

/-- Blanks inside a line. -/
def isSpace (c : Char) : Bool :=
  c == ' ' || c == '\t'

def spaces : Scan Unit := do
  let _ ← run isSpace

def newline : Scan Unit :=
  char '\n' <|> word "\r\n"

def comment : Scan Unit := do
  char '#'
  let _ ← run isPlain

/-- Takes what may follow a statement on its line, and the end of that line or of the text. -/
def lineEnd : Scan Unit := do
  spaces
  let _ ← option comment
  newline <|> atEnd

/-- Passes over blanks, line ends and comments. -/
def layout : Scan Unit := do
  let _ ← many ((do let _ ← one isSpace) <|> newline <|> comment)

/-! ## Strings -/

/-- Takes the given number of hexadecimal digits, which write a character. -/
def codePoint (digits : Nat) : Scan Char := do
  let value := valueIn 16 (← exactly (one fun c => (hexValue? c).isSome) digits)
  ensure (decide value.isValidChar)
  return Char.ofNat value

def escaped : Scan Char := do
  char '\\'
  match ← one fun _ => true with
  | 'b' => return '\x08'
  | 't' => return '\t'
  | 'n' => return '\n'
  | 'f' => return '\x0c'
  | 'r' => return '\r'
  | '"' => return '"'
  | '\\' => return '\\'
  | 'u' => codePoint 4
  | 'U' => codePoint 8
  | _ => failure

/-- Takes a line end that is escaped, with the blanks and empty lines after it. -/
def escapedNewline : Scan Unit := do
  char '\\'
  spaces
  newline
  let _ ← many ((do let _ ← one isSpace) <|> newline)

def basicString : Scan String := do
  char '"'
  let text ← many (one (fun c => isPlain c && c != '"' && c != '\\') <|> escaped)
  char '"'
  return String.ofList text

def literalString : Scan String := do
  char '\''
  let text ← run fun c => isPlain c && c != '\''
  char '\''
  return String.ofList text

/-- One or two quotes inside a string of several lines. -/
def innerQuotes (quote : Char) : Scan (List Char) := do
  let quotes ← run (· == quote)
  ensure (1 ≤ quotes.length && quotes.length ≤ 2)
  return quotes

/-- The quotes that end a string of several lines: up to two of them belong to the text. -/
def closingQuotes (quote : Char) : Scan (List Char) := do
  let quotes ← run (· == quote)
  ensure (3 ≤ quotes.length && quotes.length ≤ 5)
  return quotes.drop 3

/-- Takes a string between three quotes, given how to take its other parts. A line end right after
the opening quotes is no part of the text. -/
def longString (quote : Char) (part : Scan (List Char)) : Scan String := do
  let _ ← exactly (char quote) 3
  let _ ← option newline
  let parts ← many (part <|> (do newline; return ['\n']) <|> innerQuotes quote)
  let final ← closingQuotes quote
  return String.ofList (parts.flatten ++ final)

def longBasicString : Scan String :=
  longString '"' <|
    (do return [← one fun c => isPlain c && c != '"' && c != '\\']) <|>
    (do escapedNewline; return []) <|>
    (do return [← escaped])

def longLiteralString : Scan String :=
  longString '\'' do return [← one fun c => isPlain c && c != '\'']

def anyString : Scan String :=
  longBasicString <|> longLiteralString <|> basicString <|> literalString

/-! ## Keys -/

/-- The characters of a key without quotes. -/
def isBare (c : Char) : Bool :=
  c.isAlphanum || c == '-' || c == '_'

def bareKey : Scan String := do
  let text ← run isBare
  ensure (!text.isEmpty)
  return String.ofList text

/-- A key may not have this many parts. -/
def depthLimit : Nat :=
  80

/-- Takes a key of one or more parts with dots between them: the parts before the last, and the
last. -/
def key : Scan (List String × String) := do
  let part := do
    spaces
    let text ← basicString <|> literalString <|> bareKey
    spaces
    return text
  let parts ← divided part (char '.')
  ensure (parts.length < depthLimit)
  return (parts.dropLast, parts.getLastD "")

end TokenLayout.Toml.Read
