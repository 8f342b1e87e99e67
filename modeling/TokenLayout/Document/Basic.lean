import TokenLayout.Path
import TokenLayout.Token.Cursor

/-! # Documents

A document is the list of root tokens of one source file. A document that comes from outside is
validated: every token must have a position, and only composite tokens may own children. The
search for a malformed token keeps a list of pending tokens and puts the children of each in front,
so that a parent comes before its children and those before its later siblings.
-/

namespace TokenLayout

/-- The token tree of one source file. -/
structure Document where
  generated : Bool
  tokens : List Token
  deriving DecidableEq

inductive DocumentError where
  | unreadable (path : Path) (cause : ReadError)
  | notJson
  | childrenOnLeaf (kind : Kind) (line : Nat)
  | invalidPosition (kind : Kind) (line lineSpan : Nat)
  deriving DecidableEq

def DocumentError.message : DocumentError → String
  | unreadable path cause => "Failed to read document " ++ path.text ++ ": " ++ cause.message
  | notJson => "Failed to parse token tree"
  | childrenOnLeaf kind line =>
    s!"Token kind '{kind.name}' at line {line} cannot own child tokens"
  | invalidPosition kind line lineSpan =>
    s!"Token kind '{kind.name}' has an invalid position (line {line}, span {lineSpan})"

/-- What is wrong with a token itself, its children aside. A missing position is reported before
misplaced children. -/
def Token.defect? (token : Token) : Option DocumentError :=
  if token.line = 0 ∨ token.lineSpan = 0 then
    some (.invalidPosition token.kind token.line token.lineSpan)
  else if !token.children.isEmpty && !token.kind.isComposite then
    some (.childrenOnLeaf token.kind token.line)
  else none

/-- Sizes of token lists add up. -/
private theorem Token.sizeList_append (front back : List Token) :
    Token.sizeList (front ++ back) = Token.sizeList front + Token.sizeList back := by
  induction front with
  | nil => simp [Token.sizeList]
  | cons token rest ih =>
    simp only [List.cons_append, Token.sizeList, ih]
    omega

namespace Document

def isEmpty (document : Document) : Bool :=
  document.tokens.isEmpty

/-- The first defect among pending tokens and their descendants, parents first. -/
def firstDefect? (pending : List Token) : Option DocumentError :=
  match pending with
  | [] => none
  | token :: rest =>
    match token.defect? with
    | some defect => some defect
    | none => firstDefect? (token.children ++ rest)
termination_by Token.sizeList pending
decreasing_by
  rw [Token.sizeList_append]
  cases token
  simp only [Token.sizeList, Token.size]
  omega

/-- Accepts a document without a malformed token, and gives the first defect otherwise. -/
def validate (document : Document) : Except DocumentError Unit :=
  match firstDefect? document.tokens with
  | some defect => .error defect
  | none => .ok ()

def cursor (document : Document) : Cursor :=
  Cursor.start document.tokens

end Document

end TokenLayout
