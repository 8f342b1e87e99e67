import TokenLayout.Document.Basic
import TokenLayout.Text

/-! # Building documents

A builder takes tokens by kind and text in source order and gives each its position. It keeps only
the line and column that the next character will have, the composites that are still open, and the
marks for generated code. Tokens are collected newest first, so that every call takes the same time
however long the document is. A call changes the builder in place: it leaves one behind whether it
succeeds or fails, and the caller goes on with that.

The texts that a builder is given lie in memory, so no line or column it counts comes near the bound
of a word.
-/

namespace TokenLayout

inductive BuildError where
  | notComposite (kind : Kind)
  | nothingOpen
  | unclosed (count : Nat)
  deriving DecidableEq

def BuildError.message : BuildError → String
  | notComposite kind => s!"Token kind '{kind.name}' cannot own child tokens"
  | nothingOpen => "No composite token is open"
  | unclosed count => s!"{count} composite token(s) left open"

/-- A composite token that is still open, with the mark in force when it was opened and its tokens
so far, the newest first. -/
structure OpenComposite where
  kind : Kind
  generated : Bool
  newest : List Token
  deriving DecidableEq

/-- The token that an open composite becomes. -/
def OpenComposite.token (inner : OpenComposite) : Token :=
  { Token.composite inner.kind inner.newest.reverse with generated := inner.generated }

/-- A document under construction, its root tokens the newest first. The position is that of the
next character. -/
structure Builder where
  newest : List Token
  /-- Open composites, innermost first. -/
  pending : List OpenComposite
  line : Nat
  column : Nat
  /-- Are the tokens that come next marked as generated? -/
  generated : Bool
  documentGenerated : Bool
  deriving DecidableEq

namespace Builder

/-- A builder at the first column of line one. -/
def start : Builder :=
  ⟨[], [], 1, 1, false, false⟩

/-- Appends a token to the innermost open list. -/
def append (builder : Builder) (token : Token) : Builder :=
  match builder.pending with
  | [] => { builder with newest := token :: builder.newest }
  | inner :: outer =>
    { builder with pending := { inner with newest := token :: inner.newest } :: outer }

/-- Appends a line terminator with the given text and goes to the start of the next line. -/
def endLine (builder : Builder) (text : String) : Builder :=
  let token : Token :=
    { Token.leaf .endOfLine text builder.line builder.column
        (builder.column + (text.length - 1)) with
      generated := builder.generated }
  { builder.append token with line := builder.line + 1, column := 1 }

/-- Appends a leaf and goes past its text. A text of several physical lines ends in the last of
them. -/
def push (builder : Builder) (kind : Kind) (text : String) : Builder :=
  if kind = .endOfLine then builder.endLine text
  else
    let widths := (physicalLines text.toList).map List.length
    let span := widths.length
    let first := widths.headD 0
    let last := widths.getLastD 0
    let endColumn := if span = 1 then builder.column + (first - 1) else max last 1
    let token : Token :=
      { Token.leaf kind text builder.line builder.column endColumn with
        lineSpan := span, generated := builder.generated }
    let after := builder.append token
    if span = 1 then { after with column := builder.column + first }
    else { after with line := builder.line + (span - 1), column := last + 1 }

/-- Opens a composite; the tokens that come next are its children. -/
def openComposite (builder : Builder) (kind : Kind) : Except BuildError Unit × Builder :=
  if kind.isComposite then
    (.ok (), { builder with pending := ⟨kind, builder.generated, []⟩ :: builder.pending })
  else (.error (.notComposite kind), builder)

/-- Takes the innermost open composite away, if there is one. -/
def pop (builder : Builder) : Option OpenComposite × Builder :=
  (builder.pending.head?, { builder with pending := builder.pending.tail })

/-- Closes the innermost open composite. -/
def closeComposite (builder : Builder) : Except BuildError Unit × Builder :=
  match builder.pop with
  | (none, rest) => (.error .nothingOpen, rest)
  | (some inner, rest) => (.ok (), rest.append inner.token)

def finish (builder : Builder) : Except BuildError Document :=
  match builder.pending.length with
  | 0 => .ok ⟨builder.documentGenerated, builder.newest.reverse⟩
  | count + 1 => .error (.unclosed (count + 1))

inductive Call where
  | push (kind : Kind) (text : String)
  | endLine (text : String)
  | openComposite (kind : Kind)
  | closeComposite
  | markTokens (generated : Bool)
  | markDocument (generated : Bool)
  deriving DecidableEq

/-- Makes one call: its outcome, and the builder that it leaves. -/
def call (builder : Builder) : Call → Except BuildError Unit × Builder
  | .push kind text => (.ok (), builder.push kind text)
  | .endLine text => (.ok (), builder.endLine text)
  | .openComposite kind => builder.openComposite kind
  | .closeComposite => builder.closeComposite
  | .markTokens generated => (.ok (), { builder with generated })
  | .markDocument generated => (.ok (), { builder with documentGenerated := generated })

/-- The builder that a call leaves, whether it succeeds or fails. -/
def attempt (builder : Builder) (call : Call) : Builder :=
  (builder.call call).2

/-- Makes calls in order and goes on after failures. -/
def run (builder : Builder) (calls : List Call) : Builder :=
  calls.foldl attempt builder

end Builder

end TokenLayout
