import TokenLayout.Check.Rule
import TokenLayout.Check.Violation
import TokenLayout.Document.Basic
import TokenLayout.Text

/-! # The layout check

The check goes once through the leaves of a document and then looks at its end. Every question is a
function from tokens to the violations it finds; `Document.checkLayout` puts their answers in order
and keeps the first for every rule and line.

Tokens marked as generated are passed over by every question, but a generated blank run before a
line terminator still makes that line end with whitespace.
-/

namespace TokenLayout

inductive CheckError where
  | emptyDocument
  | leaf (fault : LeafFault)
  deriving DecidableEq

def CheckError.message : CheckError → String
  | emptyDocument => "Document has no tokens"
  | leaf fault => fault.message

namespace Layout

def skips (settings : Settings) (token : Token) : Bool :=
  settings.excludes token.generated

/-- A document must not start with whitespace. -/
def leadingWhitespace (settings : Settings) (first : Token) : List Violation :=
  if !skips settings first && first.kind.isWhitespace then
    [.plain .leadingWhitespace first.line]
  else []

/-- The physical lines of a token's text with their indices. -/
def indexedLines (token : Token) : List (List Char × Nat) :=
  (physicalLines token.text.toList).zipIdx

/-- Line number of the physical line with the given index. -/
def lineNumber (token : Token) (index : Nat) : Nat :=
  wordSum token.line index

/-- Number of characters of the physical line with the given index. The first one is measured from
the start of the line that the token stands in. -/
def widthAt (token : Token) (index : Nat) (text : List Char) : Nat :=
  wordSum (if index = 0 then token.startColumn - 1 else 0) text.length

/-- Lines must not end with whitespace: a line terminator must not follow a blank run, a token that
takes the rest of its line must not end with a blank, nor may any line of a block comment. -/
def trailingWhitespace (settings : Settings) (previous : Option Token) (token : Token) :
    List Violation :=
  if skips settings token then []
  else
    match token.kind with
    | .endOfLine =>
      if previous.any (·.kind == .whitespace) then [.plain .trailingWhitespace token.line] else []
    | .blockComment =>
      (indexedLines token).filterMap fun (text, index) =>
        if endsBlank text then some (.plain .trailingWhitespace (lineNumber token index)) else none
    | kind =>
      if kind.eatsLine && endsBlank token.text.toList then
        [.plain .trailingWhitespace token.line]
      else []

/-- Lines must not be longer than the maximum. A block comment is measured line by line, its first
line from the start of the physical line; every other token by the column it ends in; a line
terminator does not count itself. -/
def lineLength (settings : Settings) (token : Token) : List Violation :=
  let tooLong (line : Nat) : Violation := ⟨.lineTooLong, line, some settings.maximum⟩
  if skips settings token then []
  else
    match token.kind with
    | .blockComment =>
      (indexedLines token).filterMap fun (text, index) =>
        if settings.maximum < widthAt token index text then some (tooLong (lineNumber token index))
        else none
    | .endOfLine =>
      if settings.maximum < token.startColumn - 1 then [tooLong token.endLine] else []
    | _ => if settings.maximum < token.endColumn then [tooLong token.endLine] else []

/-- What is found on the way through the leaves, given the leaf before them. -/
def forward (settings : Settings) : Option Token → List Token → List Violation
  | _, [] => []
  | previous, token :: rest =>
    (if previous.isNone then leadingWhitespace settings token else []) ++
      trailingWhitespace settings previous token ++ lineLength settings token ++
      forward settings (some token) rest

/-- A document must not end with several line terminators. Goes backwards through the root tokens
while they are whitespace that is not passed over; `last` is the line of the last terminator, once
it is known. -/
def blankTail (settings : Settings) (last : Option Nat) : List Token → List Violation
  | [] => []
  | token :: earlier =>
    if !token.kind.isWhitespace || skips settings token then []
    else if token.kind = .endOfLine then
      match last with
      | none => blankTail settings (some token.line) earlier
      | some line =>
        (if token.line < line then [.plain .trailingBlankLines line] else []) ++
          blankTail settings last earlier
    else blankTail settings last earlier

/-- A document must end with a line terminator. -/
def finalNewline (settings : Settings) (last : Token) : List Violation :=
  if !skips settings last && last.kind != .endOfLine then
    [.plain .missingTrailingNewline last.line]
  else []

/-- Everything found in the root tokens and their leaves, the last of which is `last`, in order and
with repetitions. -/
def findings (settings : Settings) (roots leaves : List Token) (last : Token) : List Violation :=
  forward settings none leaves ++ blankTail settings none roots.reverse ++
    finalNewline settings last

end Layout

/-- The layout violations of a document. A generated document has none unless generated code is
included. -/
def Document.checkLayout (document : Document) (settings : Settings) :
    Except CheckError (List Violation) :=
  if document.isEmpty then .error .emptyDocument
  else if settings.excludes document.generated then .ok []
  else
    match Token.leaves document.tokens with
    | .error fault => .error (.leaf fault)
    | .ok leaves =>
      match leaves.getLast? with
      | none => .error .emptyDocument
      | some last =>
        .ok (Violation.distinct (Layout.findings settings document.tokens leaves last))

end TokenLayout
