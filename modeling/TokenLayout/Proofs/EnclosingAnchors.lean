import TokenLayout.Proofs.LeafOrder

/-! # What a cursor keeps on its stack

While a walk lasts, the anchors of a cursor are the places of the composite tokens around the place
where it stands, from the innermost out to the root list. `Place.Within` says so level by level, and
`Cursor.Placed` is the invariant of a cursor over given roots.

The invariant is kept by going down one level, by going on from an exhausted level and so by a
whole step. It holds between two steps and on the way down inside a step, where tokens are looked up
as well; as a cursor always stands inside a list, no look-up of a token fails.
-/

namespace TokenLayout

namespace Place

/-- The places around a place, innermost first. Each of them holds a composite token whose children
are the list of the place inside it; the outermost place lies in the root list. -/
inductive Within (roots : List Token) : Place → List Place → Prop where
  | root {here : Place} : here.list = roots → Within roots here []
  | child {here anchor : Place} {above : List Place} {owner : Token} :
      Within roots anchor above → anchor.token? = some owner → owner.hasChildren = true →
      here.list = owner.children → Within roots here (anchor :: above)

theorem exists_token_iff {place : Place} :
    (∃ token, place.token? = some token) ↔ place.index < place.list.length := by
  rw [token?_eq, ← Option.isSome_iff_exists, isSome_getElem?]

theorem mem_list_of_token? {place : Place} {token : Token} (found : place.token? = some token) :
    token ∈ place.list := by
  rw [token?_eq] at found
  exact List.mem_of_getElem? found

theorem index_successor_lt {place next : Place} (later : place.successor? = some next) :
    next.index < next.list.length := by
  obtain ⟨same, index⟩ := index_successor later
  rw [successorIndex, Option.ite_none_right_eq_some] at index
  rw [same, ← Option.some.inj index.2]
  exact index.1

namespace Within

variable {roots : List Token} {here other : Place} {anchors : List Place}

/-- Which places are around a place depends on its list only, not on the index. -/
theorem of_list_eq (within : here.Within roots anchors) (same : other.list = here.list) :
    other.Within roots anchors := by
  cases within with
  | root lies => exact .root (same.trans lies)
  | child outer found inner owned => exact .child outer found inner (same.trans owned)

/-- Every level of the tree takes one place. -/
theorem length_add_depthOf_le (within : here.Within roots anchors) :
    anchors.length + Token.depthOf here.list ≤ Token.depthOf roots := by
  induction within with
  | root lies => simp [lies]
  | @child here anchor above owner outer found inner owned ih =>
      have level : owner.depth ≤ Token.depthOf anchor.list :=
        Token.depth_le_depthOf (mem_list_of_token? found)
      rw [owner.depth_eq, ← owned] at level
      rw [List.length_cons]
      omega

theorem length_lt_depthOf (within : here.Within roots anchors)
    (inside : here.index < here.list.length) : anchors.length < Token.depthOf roots := by
  have levels := within.length_add_depthOf_le
  obtain ⟨token, found⟩ := exists_token_iff.mpr inside
  have level : token.depth ≤ Token.depthOf here.list :=
    Token.depth_le_depthOf (mem_list_of_token? found)
  rw [token.depth_eq] at level
  omega

end Within

end Place

namespace Cursor

/-! ## The invariant -/

/-- A cursor over given roots: it stands inside a list and keeps the places around that list, or the
walk is over and it keeps nothing. -/
inductive Placed (roots : List Token) : Cursor → Prop where
  | standing {here : Place} {anchors : List Place} : here.index < here.list.length →
      here.Within roots anchors → Placed roots ⟨some here, anchors⟩
  | finished : Placed roots finished

section Invariant

variable {roots : List Token} {cursor : Cursor}

theorem placed_start (tokens : List Token) : (start tokens).Placed tokens := by
  cases tokens with
  | nil => exact .finished
  | cons token rest => exact .standing (Nat.zero_lt_succ _) (.root rfl)

theorem Placed.anchors_eq_nil (placed : cursor.Placed roots) (ended : cursor.current = none) :
    cursor.anchors = [] := by
  cases placed with
  | standing => cases ended
  | finished => rfl

theorem Placed.of_current {here : Place} (placed : cursor.Placed roots)
    (stands : cursor.current = some here) :
    here.index < here.list.length ∧ here.Within roots cursor.anchors := by
  cases placed with
  | finished => cases stands
  | standing inside within =>
      cases stands
      exact ⟨inside, within⟩

theorem Placed.enters {deeper : Cursor} (placed : cursor.Placed roots)
    (down : Enters cursor deeper) : deeper.Placed roots := by
  cases down with
  | @intro place anchors owner found inner =>
      obtain ⟨-, within⟩ := placed.of_current rfl
      have some_child : owner.children ≠ [] := by
        intro none_owned
        simp [Token.hasChildren, none_owned] at inner
      exact .standing (List.length_pos_of_ne_nil some_child) (.child within found inner rfl)

theorem Placed.descends {deeper : Cursor} (placed : cursor.Placed roots)
    (path : Relation.ReflTransGen Enters cursor deeper) : deeper.Placed roots := by
  induction path with
  | refl => exact placed
  | tail _ down ih => exact ih.enters down

theorem placed_advance (here : Place) (anchors : List Place) :
    here.Within roots anchors →
      Placed roots ⟨(advance here anchors).1, (advance here anchors).2⟩ := by
  fun_induction advance here anchors with
  | case1 here =>
      intro within
      cases later : here.successor? with
      | none => exact .finished
      | some next =>
          exact .standing (Place.index_successor_lt later)
            (within.of_list_eq (Place.index_successor later).1)
  | case2 here anchor rest next later =>
      intro within
      exact .standing (Place.index_successor_lt later)
        (within.of_list_eq (Place.index_successor later).1)
  | case3 here anchor rest last ih =>
      -- The level is exhausted. Its anchor is the next place to go on from, and the anchors further
      -- out are those around it, so any number of levels can be left in this way.
      intro within
      cases within with
      | child outer => exact ih outer

theorem Placed.next (placed : cursor.Placed roots) : cursor.next.2.Placed roots := by
  cases placed with
  | finished => exact .finished
  | @standing here anchors inside within =>
      have stands : current ⟨some here, anchors⟩ = some here := rfl
      obtain ⟨reached, place, above, settles, step⟩ :=
        next_eq stands (Place.exists_token_iff.mpr inside)
      rw [step]
      cases reached.kind.isLeaf with
      | false => exact .finished
      | true =>
          have halted := (Placed.standing inside within).descends settles.path
          exact placed_advance place above (halted.of_current rfl).2

theorem Placed.skip (placed : cursor.Placed roots) (steps : Nat) :
    (cursor.skip steps).Placed roots := by
  induction steps generalizing cursor with
  | zero => exact placed
  | succ steps ih => exact ih placed.next

end Invariant

/-! ## How far the walk has come -/

theorem skip_finished (steps : Nat) : finished.skip steps = finished := by
  induction steps with
  | zero => rfl
  | succ steps ih => exact ih

/-- As long as the walk lasts, every step has taken one terminal off. -/
theorem remaining_skip {roots : List Token} {cursor : Cursor} {here : Place}
    (placed : cursor.Placed roots) (steps : Nat)
    (stands : (cursor.skip steps).current = some here) :
    (cursor.skip steps).remaining = cursor.remaining.drop steps := by
  induction steps generalizing cursor with
  | zero => rfl
  | succ steps ih =>
      have next_placed := placed.next
      rw [skip] at stands ⊢
      cases placed with
      | finished =>
          rw [show finished.next.2 = finished from rfl, skip_finished] at stands
          cases stands
      | @standing first anchors inside within =>
          have starts : current ⟨some first, anchors⟩ = some first := rfl
          obtain ⟨reached, place, above, settles, step⟩ :=
            next_eq starts (Place.exists_token_iff.mpr inside)
          rw [step] at stands next_placed ⊢
          cases leaf : reached.kind.isLeaf with
          | false =>
              -- The step ends with a fault, so the walk does not get as far as `stands` says.
              rw [leaf, if_neg Bool.false_ne_true, skip_finished] at stands
              cases stands
          | true =>
              rw [leaf, if_pos rfl] at stands next_placed
              rw [if_pos rfl, ih next_placed stands, settles.remaining_eq, List.drop_succ_cons]

/-- However many steps a fresh cursor has made, it stands inside a list, behind as many terminals,
and its anchors are the composite tokens around that list; or it is at the end and has no anchors.
The stack stays below the depth of the tree, also on the way down inside the next step, and every
token that is looked up on that way is there: the step never ends without handing something out. -/
theorem anchors_enclose_current (tokens : List Token) (steps : Nat) :
    let cursor := (start tokens).skip steps
    (cursor.current = none → cursor.anchors = []) ∧
    (∀ here, cursor.current = some here →
      here.index < here.list.length ∧ here.Within tokens cursor.anchors ∧
        cursor.remaining = (Token.terminalsOf tokens).drop steps) ∧
    (∀ deeper here, Relation.ReflTransGen Enters cursor deeper → deeper.current = some here →
      deeper.anchors.length < Token.depthOf tokens ∧ ∃ token, here.token? = some token) ∧
    ∀ here, cursor.current = some here →
      ∃ reached place above, Settles cursor reached place above ∧
        cursor.next.1 = some reached.asLeaf := by
  intro cursor
  have placed : cursor.Placed tokens := (placed_start tokens).skip steps
  refine ⟨placed.anchors_eq_nil, fun here stands => ?_, fun deeper here path stands => ?_,
    fun here stands => ?_⟩
  · obtain ⟨inside, within⟩ := placed.of_current stands
    refine ⟨inside, within, ?_⟩
    rw [remaining_skip (placed_start tokens) steps stands, remaining_start]
  · obtain ⟨inside, within⟩ := (placed.descends path).of_current stands
    exact ⟨within.length_lt_depthOf inside, Place.exists_token_iff.mpr inside⟩
  · obtain ⟨inside, _⟩ := placed.of_current stands
    obtain ⟨reached, place, above, settles, step⟩ :=
      next_eq stands (Place.exists_token_iff.mpr inside)
    exact ⟨reached, place, above, settles, by rw [step]⟩

/-- Two composites inside each other that are exhausted together, with a leaf behind them. -/
def nestedPair : List Token :=
  [⟨.header, "", 1, 1, 1, 1, false,
      [⟨.typeReference, "", 1, 1, 1, 1, false, [.leaf .plain "a" 1 1 1, .leaf .plain "b" 1 2 2]⟩]⟩,
    .leaf .endOfLine "\n" 1 3 3]

theorem anchors_enclose_current_nestedPair :
    (∃ here, ((start nestedPair).skip 1).current = some here ∧ here.index = 1 ∧
      here.Within nestedPair ((start nestedPair).skip 1).anchors) ∧
    ((start nestedPair).skip 1).anchors.length = 2 ∧ Token.depthOf nestedPair = 3 ∧
    ((start nestedPair).skip 2).anchors.length = 0 ∧
    ((start nestedPair).skip 3).current = none ∧ ((start nestedPair).skip 3).anchors = [] := by
  obtain ⟨-, inside, -⟩ := anchors_enclose_current nestedPair 1
  obtain ⟨emptied, -⟩ := anchors_enclose_current nestedPair 3
  have ended : ((start nestedPair).skip 3).current = none := by decide
  refine ⟨⟨_, rfl, rfl, (inside _ rfl).2.1⟩, by decide, by decide, by decide, ended, emptied ended⟩

end Cursor

end TokenLayout
