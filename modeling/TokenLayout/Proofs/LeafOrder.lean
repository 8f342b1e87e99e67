import Mathlib.Data.List.Basic
import Mathlib.Logic.Relation
import TokenLayout.Token.Cursor

/-! # The cursor follows the recursive walk

`Token.terminalsOf` is the plain recursive walk through a list of token trees, in document order and
without a stack. A cursor holds the same tokens in another form: what is left of the current list,
and behind it what is left of every list around it. `Cursor.remaining` reads that form back, and a
single step takes exactly one item off it. Everything about whole walks follows by induction on the
items that are left.

A step goes down until it stands on a token without children to enter, and then on to the next
place. Going down is taken one level at a time (`Cursor.Enters`), so that the states in between are
cursors too. `Cursor.next_eq` says once what a step does in these terms.
-/

namespace TokenLayout

mutual
/-- The tokens at which a recursive walk stops, in document order. A composite token gives way to
its children, if it has any; every other token stands for itself. -/
def Token.terminals : Token → List Token
  | ⟨kind, text, line, startColumn, endColumn, lineSpan, generated, children⟩ =>
    let self : Token := ⟨kind, text, line, startColumn, endColumn, lineSpan, generated, children⟩
    if self.hasChildren then terminalsOf children else [self]

/-- The terminal tokens of a list of trees. -/
def Token.terminalsOf : List Token → List Token
  | [] => []
  | token :: rest => token.terminals ++ terminalsOf rest
end

/-- What a walk over terminal tokens hands out: the tokens themselves while they are of leaf kinds,
and for the first that is not a single fault. -/
def Token.handOut : List Token → List Leaf
  | [] => []
  | token :: rest =>
    if token.kind.isLeaf then .ok token :: handOut rest
    else if token.kind.isComposite then [.error (.emptyComposite token.kind token.line)]
    else [.error (.unknownKind token.kind token.line)]

/-- The recursive walk through a list of token trees. -/
def Token.walk (tokens : List Token) : List Leaf :=
  handOut (terminalsOf tokens)

namespace Token

theorem sizeOf_children_lt (token : Token) : sizeOf token.children < sizeOf token := by
  cases token
  simp

mutual
/-- The levels of a tree; a token without children is one level. -/
def depth : Token → Nat
  | ⟨_, _, _, _, _, _, _, children⟩ => 1 + depthOf children

/-- The levels of a list of trees. -/
def depthOf : List Token → Nat
  | [] => 0
  | token :: rest => max token.depth (depthOf rest)
end

theorem depth_eq (token : Token) : token.depth = 1 + depthOf token.children := by
  cases token
  rw [depth]

theorem depth_le_depthOf {tokens : List Token} {token : Token} (member : token ∈ tokens) :
    token.depth ≤ depthOf tokens := by
  induction tokens with
  | nil => cases member
  | cons first rest ih =>
      rw [depthOf]
      rcases List.mem_cons.mp member with rfl | later
      · exact Nat.le_max_left _ _
      · exact Nat.le_trans (ih later) (Nat.le_max_right _ _)

theorem terminals_eq (token : Token) :
    token.terminals = if token.hasChildren then terminalsOf token.children else [token] := by
  cases token
  rw [terminals]

theorem terminals_of_hasChildren {token : Token} (inner : token.hasChildren = true) :
    token.terminals = terminalsOf token.children := by
  rw [terminals_eq, if_pos inner]

theorem terminals_of_not_hasChildren {token : Token} (outer : token.hasChildren = false) :
    token.terminals = [token] := by
  rw [terminals_eq, outer]
  rfl

theorem terminals_of_isLeaf {token : Token} (leaf : token.kind.isLeaf = true) :
    token.terminals = [token] := by
  apply terminals_of_not_hasChildren
  obtain ⟨plain, -⟩ := Bool.and_eq_true_iff.mp leaf
  rw [hasChildren, (Bool.not_eq_true' _).mp plain, Bool.false_and]

theorem terminalsOf_of_isLeaf {tokens : List Token}
    (leaves : ∀ token ∈ tokens, token.kind.isLeaf = true) : terminalsOf tokens = tokens := by
  induction tokens with
  | nil => rfl
  | cons token rest ih =>
      rw [List.forall_mem_cons] at leaves
      rw [terminalsOf, terminals_of_isLeaf leaves.1, ih leaves.2]
      rfl

@[simp] theorem terminalsOf_append (front back : List Token) :
    terminalsOf (front ++ back) = terminalsOf front ++ terminalsOf back := by
  induction front with
  | nil => rfl
  | cons token rest ih => simp only [List.cons_append, terminalsOf, ih, List.append_assoc]

mutual
theorem terminals_ne_nil (token : Token) : token.terminals ≠ [] := by
  obtain ⟨kind, text, line, startColumn, endColumn, lineSpan, generated, children⟩ := token
  rw [terminals]
  split
  · rename_i inner
    have owned : children ≠ [] := by
      rintro rfl
      simp [hasChildren] at inner
    exact terminalsOf_ne_nil children owned
  · exact List.cons_ne_nil _ _
termination_by sizeOf token

theorem terminalsOf_ne_nil (tokens : List Token) : tokens ≠ [] → terminalsOf tokens ≠ [] := by
  cases tokens with
  | nil => exact fun absent => absurd rfl absent
  | cons token rest =>
      intro _ nothing
      exact terminals_ne_nil token (List.append_eq_nil_iff.mp nothing).1
termination_by sizeOf tokens
end

theorem asLeaf_of_isLeaf {token : Token} (leaf : token.kind.isLeaf = true) :
    token.asLeaf = .ok token := by
  rw [asLeaf, if_pos leaf]

theorem asLeaf_of_not_isLeaf {token : Token} (other : token.kind.isLeaf = false) :
    ∃ fault, token.asLeaf = .error fault := by
  cases composite : token.kind.isComposite <;> simp [asLeaf, other, composite]

/-- The head of what is handed out is the first terminal, as a leaf or as a fault. -/
theorem handOut_cons (token : Token) (rest : List Token) :
    handOut (token :: rest) = token.asLeaf ::
      (if token.kind.isLeaf then handOut rest else []) := by
  cases leaf : token.kind.isLeaf <;> cases composite : token.kind.isComposite <;>
    simp [handOut, asLeaf, leaf, composite]

end Token

theorem Place.rest_of_token? {place : Place} {token : Token} (found : place.token? = some token) :
    place.rest = token :: place.rest.tail :=
  List.eq_cons_of_mem_head? found

/-- The terminals after each of several places, the first place first. -/
def Place.trail (places : List Place) : List Token :=
  places.flatMap fun place => Token.terminalsOf place.rest.tail

namespace Cursor

/-- The terminals that a cursor has still to visit. -/
def remaining (cursor : Cursor) : List Token :=
  (cursor.current.elim [] fun place => Token.terminalsOf place.rest) ++ Place.trail cursor.anchors

/-- A cursor that stands on a token, or is at the end of its walk with nothing left on the stack. -/
def Sound (cursor : Cursor) : Prop :=
  match cursor.current with
  | some place => place.rest ≠ []
  | none => cursor.anchors = []

theorem start_sound (tokens : List Token) : (start tokens).Sound := by
  cases tokens <;> simp [start, Sound, Place.first]

theorem remaining_start (tokens : List Token) :
    (start tokens).remaining = Token.terminalsOf tokens := by
  cases tokens <;> simp [start, remaining, Place.first, Place.trail, Token.terminalsOf]

theorem finished_sound : finished.Sound := rfl

/-! ## One step -/

/-- One level down: the composite token at the current place goes on the stack, and its first child
is looked up next. -/
inductive Enters : Cursor → Cursor → Prop where
  | intro {place : Place} {anchors : List Place} {owner : Token} :
      place.token? = some owner → owner.hasChildren = true →
      Enters ⟨some place, anchors⟩ ⟨some (.first owner.children), place :: anchors⟩

/-- Where a step that goes down from a cursor comes to a halt: at a token that has no children to
enter. -/
structure Settles (cursor : Cursor) (token : Token) (place : Place) (above : List Place) :
    Prop where
  path : Relation.ReflTransGen Enters cursor ⟨some place, above⟩
  found : place.token? = some token
  bare : token.hasChildren = false

mutual
theorem descend_settles (here : Place) (anchors : List Place) (token : Token) :
    here.token? = some token →
    ∀ reached place above, descend here anchors token = (reached, place, above) →
      Settles ⟨some here, anchors⟩ reached place above := by
  obtain ⟨kind, text, line, startColumn, endColumn, lineSpan, generated, children⟩ := token
  intro found reached place above entered
  rw [descend] at entered
  split at entered
  · rename_i composite
    exact enter_settles _ here anchors children found composite rfl reached place above entered
  · rename_i plain
    cases entered
    exact ⟨.refl, found, by simp [Token.hasChildren, plain]⟩
termination_by sizeOf token

theorem enter_settles (owner : Token) (here : Place) (anchors : List Place)
    (children : List Token) :
    here.token? = some owner → owner.kind.isComposite = true → owner.children = children →
    ∀ reached place above, enter owner here anchors children = (reached, place, above) →
      Settles ⟨some here, anchors⟩ reached place above := by
  cases children with
  | nil =>
      intro found _ owned reached place above entered
      cases entered
      exact ⟨.refl, found, by simp [Token.hasChildren, owned]⟩
  | cons child rest =>
      intro found composite owned reached place above entered
      rw [enter] at entered
      have inner := descend_settles (.first (child :: rest)) (here :: anchors) child rfl
        reached place above entered
      have down : Enters ⟨some here, anchors⟩ ⟨some (.first owner.children), here :: anchors⟩ :=
        .intro found (by simp [Token.hasChildren, composite, owned])
      rw [owned] at down
      exact ⟨inner.path.head down, inner.found, inner.bare⟩
termination_by sizeOf children
end

theorem successor_rest {place next : Place} (later : place.successor? = some next) :
    next.rest = place.rest.tail ∧ next.rest ≠ [] := by
  obtain ⟨before, rest⟩ := place
  match rest with
  | [] | [_] => simp [Place.successor?] at later
  | token :: second :: more =>
      simp only [Place.successor?, Option.some.injEq] at later
      subst later
      simp

theorem tail_of_no_successor {place : Place} (last : place.successor? = none) :
    place.rest.tail = [] := by
  obtain ⟨before, rest⟩ := place
  match rest with
  | [] | [_] => rfl
  | token :: second :: more => simp [Place.successor?] at last

/-- Advancing past a place leaves what comes after it, first in its own list and then around it. -/
theorem advance_trail (here : Place) (anchors : List Place) :
    ∀ current above, advance here anchors = (current, above) →
      Sound ⟨current, above⟩ ∧ remaining ⟨current, above⟩ = Place.trail (here :: anchors) := by
  fun_induction advance here anchors with
  | case1 here =>
      rintro current above ⟨⟩
      cases later : here.successor? with
      | none =>
          refine ⟨rfl, ?_⟩
          simp [remaining, Place.trail, tail_of_no_successor later, Token.terminalsOf]
      | some next =>
          obtain ⟨rest, inside⟩ := successor_rest later
          exact ⟨inside, by simp [remaining, Place.trail, rest]⟩
  | case2 here anchor rest next later =>
      rintro current above ⟨⟩
      obtain ⟨same, inside⟩ := successor_rest later
      exact ⟨inside, by simp [remaining, Place.trail, same]⟩
  | case3 here anchor rest last ih =>
      intro current above advanced
      obtain ⟨sound, left⟩ := ih current above advanced
      refine ⟨sound, left.trans ?_⟩
      simp [Place.trail, tail_of_no_successor last, Token.terminalsOf]

/-- What a step does from inside a list: it goes down to a token without children and hands that
out. If it is a leaf the walk goes on behind it, if not the walk is over. -/
theorem next_eq {cursor : Cursor} {here : Place} (stands : cursor.current = some here)
    (filled : ∃ token, here.token? = some token) :
    ∃ reached place above, Settles cursor reached place above ∧
      cursor.next = (some reached.asLeaf,
        if reached.kind.isLeaf then ⟨(advance place above).1, (advance place above).2⟩
        else finished) := by
  obtain ⟨current, anchors⟩ := cursor
  cases stands
  obtain ⟨token, found⟩ := filled
  rcases entered : descend here anchors token with ⟨reached, place, above⟩
  refine ⟨reached, place, above, descend_settles here anchors token found _ _ _ entered, ?_⟩
  cases leaf : reached.kind.isLeaf with
  | true => simp [next, found, entered, Token.asLeaf_of_isLeaf leaf]
  | false =>
      obtain ⟨fault, given⟩ := Token.asLeaf_of_not_isLeaf leaf
      simp [next, found, entered, given]

theorem Enters.remaining_eq {cursor deeper : Cursor} (down : Enters cursor deeper) :
    deeper.remaining = cursor.remaining := by
  cases down with
  | @intro place anchors owner found inner =>
      have split : Token.terminalsOf place.rest =
          Token.terminalsOf owner.children ++ Token.terminalsOf place.rest.tail := by
        rw [Place.rest_of_token? found, Token.terminalsOf, Token.terminals_of_hasChildren inner]
        rfl
      simp [remaining, Place.trail, Place.first, split]

theorem remaining_of_path {cursor deeper : Cursor}
    (path : Relation.ReflTransGen Enters cursor deeper) :
    deeper.remaining = cursor.remaining := by
  induction path with
  | refl => rfl
  | tail _ down ih => exact down.remaining_eq.trans ih

/-- The token that a step halts at is the first that was left, and what is left behind it is ahead
after the step. -/
theorem Settles.remaining_eq {cursor : Cursor} {token : Token} {place : Place}
    {above : List Place} (settles : Settles cursor token place above) :
    cursor.remaining =
      token :: remaining ⟨(advance place above).1, (advance place above).2⟩ := by
  rw [← remaining_of_path settles.path, (advance_trail place above _ _ rfl).2, remaining,
    Option.elim_some, Place.rest_of_token? settles.found, Token.terminalsOf,
    Token.terminals_of_not_hasChildren settles.bare]
  rfl

/-- One step takes the first item off what is left to hand out, and ends there if it is a fault. -/
theorem next_of_sound {cursor : Cursor} (sound : cursor.Sound) :
    match Token.handOut cursor.remaining with
    | [] => cursor.next = (none, cursor)
    | item :: later => ∃ after, cursor.next = (some item, after) ∧ after.Sound ∧
        Token.handOut after.remaining = later := by
  obtain ⟨current, anchors⟩ := cursor
  cases current with
  | none =>
      have bare : anchors = [] := sound
      subst bare
      rfl
  | some here =>
      have filled : ∃ token, here.token? = some token := by
        obtain ⟨token, later, rest⟩ := List.exists_cons_of_ne_nil sound
        exact ⟨token, by rw [Place.token?, rest, List.head?_cons]⟩
      have stands : current ⟨some here, anchors⟩ = some here := rfl
      obtain ⟨reached, place, above, settles, step⟩ := next_eq stands filled
      rw [settles.remaining_eq, Token.handOut_cons, step]
      cases reached.kind.isLeaf with
      | true => exact ⟨_, rfl, (advance_trail place above _ _ rfl).1, rfl⟩
      | false => exact ⟨finished, rfl, finished_sound, rfl⟩

/-! ## Whole walks -/

/-- The cursor after a number of steps, whatever they hand out. -/
def skip (cursor : Cursor) : Nat → Cursor
  | 0 => cursor
  | steps + 1 => cursor.next.2.skip steps

/-- Steps take items off the front, and further steps at the end of the walk change nothing. -/
theorem skip_of_sound {cursor : Cursor} (sound : cursor.Sound) (steps : Nat) :
    (cursor.skip steps).Sound ∧
      Token.handOut (cursor.skip steps).remaining =
        (Token.handOut cursor.remaining).drop steps := by
  induction steps generalizing cursor with
  | zero => exact ⟨sound, rfl⟩
  | succ steps ih =>
      have step := next_of_sound sound
      split at step
      · rename_i none_left
        rw [skip, step, none_left]
        simpa [none_left] using ih sound
      · rename_i item later left
        obtain ⟨after, step, sound, rest⟩ := step
        rw [skip, step, left, List.drop_succ_cons, ← rest]
        exact ih sound

theorem next_eq_head? {cursor : Cursor} (sound : cursor.Sound) :
    cursor.next.1 = (Token.handOut cursor.remaining).head? := by
  have step := next_of_sound sound
  split at step
  · rename_i none_left
    rw [step, none_left]
    rfl
  · rename_i item later left
    obtain ⟨after, step, _⟩ := step
    rw [step, left]
    rfl

theorem toList_of_next_none {cursor after : Cursor} (step : cursor.next = (none, after)) :
    cursor.toList = [] := by
  rw [toList]
  split
  · rfl
  · rename_i other
    rw [step] at other
    cases other

theorem toList_of_next_some {cursor after : Cursor} {item : Leaf}
    (step : cursor.next = (some item, after)) : cursor.toList = item :: after.toList := by
  rw [toList]
  split
  · rename_i other
    rw [step] at other
    cases other
  · rename_i other
    rw [step] at other
    cases other
    rfl

theorem toList_of_sound {cursor : Cursor} (sound : cursor.Sound) :
    cursor.toList = Token.handOut cursor.remaining := by
  -- The items that are left shrink with every step, so they carry the induction.
  induction items : Token.handOut cursor.remaining generalizing cursor with
  | nil =>
      have step := next_of_sound sound
      rw [items] at step
      exact toList_of_next_none step
  | cons item later ih =>
      have step := next_of_sound sound
      rw [items] at step
      obtain ⟨after, step, afterSound, rest⟩ := step
      rw [toList_of_next_some step, ih afterSound rest]

theorem toList_start (tokens : List Token) : (start tokens).toList = Token.walk tokens := by
  rw [toList_of_sound (start_sound tokens), remaining_start, Token.walk]

/-- However many steps a fresh cursor has made, the next one hands out the item of the recursive
walk with that number, and the rest of the walk follows. Past its last item there is nothing more. -/
theorem yields_walk (tokens : List Token) :
    (start tokens).toList = Token.walk tokens ∧
    ∀ steps, ((start tokens).skip steps).next.1 = (Token.walk tokens)[steps]? ∧
      ((start tokens).skip steps).toList = (Token.walk tokens).drop steps := by
  refine ⟨toList_start tokens, fun steps => ?_⟩
  obtain ⟨later, items⟩ := skip_of_sound (start_sound tokens) steps
  rw [next_eq_head? later, toList_of_sound later, items, remaining_start]
  exact ⟨List.head?_drop, rfl⟩

end Cursor

/-! ## Walks without a fault -/

namespace Token

/-- To collect what a walk hands out is to ask every terminal for its leaf: the first fault wins. -/
theorem leaves_eq_mapM_asLeaf (tokens : List Token) :
    Token.leaves tokens = (terminalsOf tokens).mapM asLeaf := by
  rw [Token.leaves, Cursor.toList_start, walk]
  induction terminalsOf tokens with
  | nil => rfl
  | cons token rest ih =>
      rw [handOut_cons, List.mapM_cons, List.mapM_cons]
      cases leaf : token.kind.isLeaf with
      | true => simp only [if_pos, ih, id]
      | false =>
          obtain ⟨fault, given⟩ := asLeaf_of_not_isLeaf leaf
          simp only [id, given]
          rfl

/-- The leaves of a list of trees are its terminals, as long as these are all of leaf kinds. -/
theorem leaves_eq_ok_iff {tokens leaves : List Token} :
    Token.leaves tokens = .ok leaves ↔
      leaves = terminalsOf tokens ∧ ∀ token ∈ leaves, token.kind.isLeaf = true := by
  rw [leaves_eq_mapM_asLeaf]
  induction terminalsOf tokens generalizing leaves with
  | nil =>
      constructor
      · intro given
        cases given
        simp
      · intro given
        obtain ⟨rfl, -⟩ := given
        rfl
  | cons token rest ih =>
      rw [List.mapM_cons]
      cases leaf : token.kind.isLeaf with
      | true =>
          rw [asLeaf_of_isLeaf leaf]
          constructor
          · intro collected
            cases drained : rest.mapM asLeaf with
            | error fault => simp [drained, bind, Except.bind] at collected
            | ok found =>
                simp only [drained, bind, Except.bind, pure, Except.pure, Except.ok.injEq]
                  at collected
                obtain ⟨rfl, leaves⟩ := ih.mp drained
                exact ⟨collected.symm, collected ▸ List.forall_mem_cons.mpr ⟨leaf, leaves⟩⟩
          · intro given
            obtain ⟨rfl, leaves⟩ := given
            rw [List.forall_mem_cons] at leaves
            rw [ih.mpr ⟨rfl, leaves.2⟩]
            rfl
      | false =>
          obtain ⟨fault, given⟩ := asLeaf_of_not_isLeaf leaf
          rw [given]
          constructor
          · intro drained
            cases drained
          · intro given
            obtain ⟨rfl, leaves⟩ := given
            rw [leaves token List.mem_cons_self] at leaf
            cases leaf

end Token

end TokenLayout
