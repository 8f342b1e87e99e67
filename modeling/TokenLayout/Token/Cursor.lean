import TokenLayout.Token.Basic

/-! # Leaf cursors

A cursor walks the leaves of a token tree in document order without recursion into the tree: it
holds the place of the next token and a stack of anchors, the places of the composite tokens it
has entered. Composite tokens are never handed out; their children come in their stead. The first
token that is neither a leaf nor entered ends the walk with a fault.

`Cursor.next` is the single step, `Cursor.toList` the whole walk. The walk ends because every step
leaves fewer tokens ahead (`Cursor.ahead_next_lt`).
-/

namespace TokenLayout

/-- Why a walk through the leaves stopped early. -/
inductive LeafFault where
  | emptyComposite (kind : Kind) (line : Nat)
  | unknownKind (kind : Kind) (line : Nat)
  deriving DecidableEq

def LeafFault.message : LeafFault → String
  | emptyComposite kind line =>
    s!"Unexpected token kind '{kind.name}' at line {line}: container tokens must not be leaves"
  | unknownKind kind line => s!"Unknown token kind '{kind.name}' at line {line}"

/-- What a step of the walk hands out: a leaf, or the fault that ends the walk. -/
abbrev Leaf := Except LeafFault Token

/-- What to hand out for a token that is not entered. -/
def Token.asLeaf (token : Token) : Leaf :=
  if token.kind.isLeaf then .ok token
  else if token.kind.isComposite then .error (.emptyComposite token.kind token.line)
  else .error (.unknownKind token.kind token.line)

/-- A position inside one token list: what lies before it and what is still to come, so that going
on takes the same time everywhere. -/
structure Place where
  /-- The tokens before the position, the nearest first. -/
  before : List Token
  /-- The token at the position and those after it. -/
  rest : List Token
  deriving DecidableEq

namespace Place

def first (tokens : List Token) : Place :=
  ⟨[], tokens⟩

def list (place : Place) : List Token :=
  place.before.reverse ++ place.rest

def index (place : Place) : Nat :=
  place.before.length

/-- The token at the place, if the index lies inside the list. -/
def token? (place : Place) : Option Token :=
  place.rest.head?

def successor? (place : Place) : Option Place :=
  match place.rest with
  | token :: next :: later => some ⟨token :: place.before, next :: later⟩
  | _ => none

/-- Number of tokens in the trees from the place on. -/
def ahead (place : Place) : Nat :=
  Token.sizeList place.rest

def beyond (place : Place) : Nat :=
  Token.sizeList place.rest.tail

/-- Number of tokens in the trees after each of several places. -/
def beyondAll : List Place → Nat
  | [] => 0
  | place :: rest => place.beyond + beyondAll rest

theorem token?_eq (place : Place) : place.token? = place.list[place.index]? := by
  simp [token?, list, index, List.getElem?_append_right, List.head?_eq_getElem?]

/-- The next place has the next index, as long as that lies inside the list. -/
theorem index_successor {place next : Place} (h : place.successor? = some next) :
    next.list = place.list ∧ successorIndex place.list.length place.index = some next.index := by
  obtain ⟨before, rest⟩ := place
  match rest with
  | [] | [_] => simp [successor?] at h
  | token :: second :: later =>
    simp only [successor?, Option.some.injEq] at h
    subst h
    simp [list, index, successorIndex]

end Place

/-- The state of a walk: the place of the next token, and the entered composites, innermost
first. -/
structure Cursor where
  current : Option Place
  /-- Places of the enclosing composite tokens, innermost first. -/
  anchors : List Place
  deriving DecidableEq

namespace Cursor

def start (tokens : List Token) : Cursor :=
  { current := if tokens.isEmpty then none else some (.first tokens), anchors := [] }

def finished : Cursor :=
  { current := none, anchors := [] }

mutual

/-- Enters composites from `token`, which stands at `here`, until a token that is not entered.
Gives that token, its place and the anchors up to it. -/
def descend (here : Place) (anchors : List Place) : Token → Token × Place × List Place
  | ⟨kind, text, line, startColumn, endColumn, lineSpan, generated, children⟩ =>
    let self := ⟨kind, text, line, startColumn, endColumn, lineSpan, generated, children⟩
    if kind.isComposite then enter self here anchors children else (self, here, anchors)

/-- Enters the child list of `owner`, if there is a child. -/
def enter (owner : Token) (here : Place) (anchors : List Place) :
    List Token → Token × Place × List Place
  | [] => (owner, here, anchors)
  | child :: rest => descend (.first (child :: rest)) (here :: anchors) child

end

/-- The place after `here`: the next sibling, or the next sibling of the innermost anchor that has
one. Exhausted anchors are dropped on the way. -/
def advance (here : Place) : List Place → Option Place × List Place
  | [] => (here.successor?, [])
  | anchor :: rest =>
    match here.successor? with
    | some next => (some next, anchor :: rest)
    | none => advance anchor rest

/-- One step of the walk: what is handed out, and the walk after it. A fault ends the walk. -/
def next (cursor : Cursor) : Option Leaf × Cursor :=
  match cursor.current with
  | none => (none, cursor)
  | some here =>
    match here.token? with
    | none => (none, { cursor with current := none })
    | some token =>
      let (reached, place, anchors) := descend here cursor.anchors token
      match reached.asLeaf with
      | .ok leaf =>
        let (current, anchors) := advance place anchors
        (some (.ok leaf), { current, anchors })
      | .error fault => (some (.error fault), finished)

/-- Number of tokens that the walk may still visit. -/
def ahead (cursor : Cursor) : Nat :=
  (cursor.current.map Place.ahead).getD 0 + Place.beyondAll cursor.anchors

end Cursor

/-! ## Every step leaves fewer tokens ahead -/

private theorem Place.ahead_eq {place : Place} {token : Token} (h : place.token? = some token) :
    place.ahead = token.size + place.beyond := by
  obtain ⟨before, rest⟩ := place
  cases rest with
  | nil => simp [Place.token?] at h
  | cons first later =>
    simp only [Place.token?, List.head?_cons, Option.some.injEq] at h
    simp [Place.ahead, Place.beyond, Token.sizeList, h]

private theorem Place.ahead_successor {place next : Place} (h : place.successor? = some next) :
    next.ahead = place.beyond := by
  obtain ⟨before, rest⟩ := place
  match rest with
  | [] | [_] => simp [Place.successor?] at h
  | token :: second :: later =>
    simp only [Place.successor?, Option.some.injEq] at h
    simp [← h, Place.ahead, Place.beyond]

mutual

private theorem Cursor.descend_beyond (here : Place) (anchors : List Place) (token : Token) :
    let (_, place, above) := Cursor.descend here anchors token
    place.beyond + Place.beyondAll above <
      token.size + (here.beyond + Place.beyondAll anchors) := by
  obtain ⟨kind, text, line, startColumn, endColumn, lineSpan, generated, children⟩ := token
  simp only [Cursor.descend, Token.size]
  split
  · have := Cursor.enter_beyond
      ⟨kind, text, line, startColumn, endColumn, lineSpan, generated, children⟩ here anchors children
    simp only at this
    omega
  · simp only
    omega
termination_by sizeOf token

private theorem Cursor.enter_beyond (owner : Token) (here : Place) (anchors : List Place)
    (children : List Token) :
    let (_, place, above) := Cursor.enter owner here anchors children
    place.beyond + Place.beyondAll above ≤
      Token.sizeList children + (here.beyond + Place.beyondAll anchors) := by
  cases children with
  | nil => simp [Cursor.enter]
  | cons child rest =>
    have := Cursor.descend_beyond (.first (child :: rest)) (here :: anchors) child
    simp only [Cursor.enter, Token.sizeList, Place.beyond, Place.first, List.tail_cons,
      Place.beyondAll] at this ⊢
    omega
termination_by sizeOf children

end

private theorem Cursor.advance_ahead (here : Place) (anchors : List Place) :
    let (current, above) := Cursor.advance here anchors
    (current.map Place.ahead).getD 0 + Place.beyondAll above ≤
      here.beyond + Place.beyondAll anchors := by
  fun_induction Cursor.advance here anchors with
  | case1 here =>
    cases h : here.successor? with
    | none => simp
    | some next => simp [Place.ahead_successor h]
  | case2 here anchor rest next h => simp [Place.ahead_successor h]
  | case3 here anchor rest h ih =>
    simp only [Place.beyondAll] at ih ⊢
    omega

/-- A step that hands something out leaves fewer tokens ahead. -/
theorem Cursor.ahead_next_lt {cursor after : Cursor} {leaf : Leaf}
    (h : cursor.next = (some leaf, after)) : after.ahead < cursor.ahead := by
  obtain ⟨current, anchors⟩ := cursor
  cases current with
  | none => simp [Cursor.next] at h
  | some here =>
    cases ht : here.token? with
    | none => simp [Cursor.next, ht] at h
    | some token =>
      have hd := Cursor.descend_beyond here anchors token
      have hh := Place.ahead_eq ht
      rcases hr : Cursor.descend here anchors token with ⟨reached, place, above⟩
      simp only [hr] at hd
      simp only [Cursor.next, ht, hr] at h
      split at h
      · have ha := Cursor.advance_ahead place above
        rcases hs : Cursor.advance place above with ⟨current, left⟩
        simp only [hs, Prod.mk.injEq] at h ha
        simp only [← h.2, Cursor.ahead, Option.map_some, Option.getD_some]
        omega
      · simp only [Prod.mk.injEq] at h
        simp only [← h.2, Cursor.ahead, Cursor.finished, Option.map_none, Option.getD_none,
          Place.beyondAll, Option.map_some, Option.getD_some]
        omega

/-- Everything that the walk still hands out, in order; a fault can only be the last entry. -/
def Cursor.toList (cursor : Cursor) : List Leaf :=
  match _h : cursor.next with
  | (none, _) => []
  | (some leaf, after) => leaf :: after.toList
termination_by cursor.ahead
decreasing_by exact Cursor.ahead_next_lt _h

/-- All leaves of a token list, or the fault that the walk ends with. -/
def Token.leaves (tokens : List Token) : Except LeafFault (List Token) :=
  (Cursor.start tokens).toList.mapM id

end TokenLayout
