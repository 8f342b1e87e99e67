import TokenLayout.Number
import TokenLayout.Token.Kind

/-! # Tokens

A token has a kind, a position and either source text or child tokens. Lines and columns count
from one; the end column is that of the last character on the token's last line. Nothing in the
type ties the position to the text or the children to the kind: documents come from outside and
are checked where it matters. Positions are machine words, so what is computed from them is too.
-/

namespace TokenLayout

/-- A source token with the tokens it owns. It covers `lineSpan` physical lines from `line` on; its
columns are that of its first character and that of its last one, on the last line. -/
structure Token where
  kind : Kind
  text : String
  line : Nat
  startColumn : Nat
  endColumn : Nat
  lineSpan : Nat
  generated : Bool
  children : List Token

namespace Token

mutual

def decEq : (a b : Token) → Decidable (a = b)
  | ⟨kind, text, line, start, stop, span, generated, children⟩,
    ⟨kind', text', line', start', stop', span', generated', children'⟩ =>
    match decEqList children children' with
    | .isFalse differ => .isFalse (by simp [differ])
    | .isTrue same =>
      decidable_of_iff
        (kind = kind' ∧ text = text' ∧ line = line' ∧ start = start' ∧ stop = stop' ∧
          span = span' ∧ generated = generated')
        (by simp [same])

def decEqList : (as bs : List Token) → Decidable (as = bs)
  | [], [] => .isTrue rfl
  | [], _ :: _ => .isFalse (by simp)
  | _ :: _, [] => .isFalse (by simp)
  | a :: as, b :: bs =>
    match decEq a b with
    | .isFalse differ => .isFalse (by simp [differ])
    | .isTrue same =>
      match decEqList as bs with
      | .isFalse differ => .isFalse (by simp [differ])
      | .isTrue rest => .isTrue (by simp [same, rest])

end

instance : DecidableEq Token :=
  decEq

/-- A hand-written leaf on a single line. -/
def leaf (kind : Kind) (text : String) (line startColumn endColumn : Nat) : Token :=
  { kind, text, line, startColumn, endColumn, lineSpan := 1, generated := false, children := [] }

/-- Line of the last character. -/
def endLine (token : Token) : Nat :=
  wordSum token.line (token.lineSpan - 1)

theorem endLine_lt (token : Token) : token.endLine < wordBound :=
  wordSum_lt _ _

/-- Does a walk through the document descend into this token? Only composite kinds are descended
into, and only when there is something to find. -/
def hasChildren (token : Token) : Bool :=
  token.kind.isComposite && !token.children.isEmpty

mutual

/-- Number of tokens in the tree below a token, the token included. -/
def size : Token → Nat
  | ⟨_, _, _, _, _, _, _, children⟩ => 1 + sizeList children

def sizeList : List Token → Nat
  | [] => 0
  | token :: rest => token.size + sizeList rest

end

mutual

/-- The token reached by descending through first children. -/
def firstLeaf : Token → Token
  | ⟨kind, text, line, startColumn, endColumn, lineSpan, generated, children⟩ =>
    let self := ⟨kind, text, line, startColumn, endColumn, lineSpan, generated, children⟩
    if kind.isComposite then firstLeafOf self children else self

/-- The first leaf of the first token of a list, or `default` if the list is empty. -/
def firstLeafOf (default : Token) : List Token → Token
  | [] => default
  | token :: _ => token.firstLeaf

end

mutual

/-- The token reached by descending through last children. -/
def lastLeaf : Token → Token
  | ⟨kind, text, line, startColumn, endColumn, lineSpan, generated, children⟩ =>
    let self := ⟨kind, text, line, startColumn, endColumn, lineSpan, generated, children⟩
    if kind.isComposite then lastLeafOf self children else self

/-- The last leaf of the last token of a list, or `default` if the list is empty. -/
def lastLeafOf (default : Token) : List Token → Token
  | [] => default
  | [token] => token.lastLeaf
  | _ :: rest => lastLeafOf default rest

end

/-- A composite token around its children. The position reaches from the first leaf to the last
one; without children it is the first column of line one. -/
def composite (kind : Kind) (children : List Token) : Token :=
  let first := children.head?.map firstLeaf
  let last := children.getLast?.map lastLeaf
  let line := (first.map (·.line)).getD 1
  let startColumn := (first.map (·.startColumn)).getD 1
  let endLine := (last.map endLine).getD line
  let endColumn := (last.map (·.endColumn)).getD startColumn
  { kind, text := "", line, startColumn, endColumn, lineSpan := wordSum (endLine - line) 1,
    generated := false, children }

end Token

/-- Index of the entry before `index` in a list of `length` entries. An index past the end has a
predecessor only if that lies inside. -/
def predecessorIndex (length index : Nat) : Option Nat :=
  if 0 < index ∧ index - 1 < length then some (index - 1) else none

/-- Index of the entry after `index` in a list of `length` entries. -/
def successorIndex (length index : Nat) : Option Nat :=
  if index + 1 < length then some (index + 1) else none

end TokenLayout
