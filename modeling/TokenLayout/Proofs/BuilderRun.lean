import TokenLayout.Document.Builder
import TokenLayout.Proofs.LeafOrder
import TokenLayout.Proofs.PhysicalLines

/-! # What a run of a builder leaves in the document

A run pushes leaves and nests them in composites. The nesting has no effect on the leaves: the walk
through the finished document finds exactly what was pushed, in order, at the positions that the
pushes alone determine (`Builder.leaves_of_finish`). The only exception is a composite that is
closed without a token in it, which stands in the walk itself.
-/

namespace TokenLayout

/-- A leaf as it is pushed: what the caller gives, and the mark in force. -/
structure Fragment where
  kind : Kind
  text : String
  generated : Bool
  deriving DecidableEq

/-- Line and column of a character. -/
structure Position where
  line : Nat
  column : Nat
  deriving DecidableEq

namespace Fragment

/-- The token for a fragment at a position. -/
def token (fragment : Fragment) (place : Position) : Token :=
  if fragment.kind = .endOfLine then
    { Token.leaf .endOfLine fragment.text place.line place.column
        (place.column + (fragment.text.length - 1)) with
      generated := fragment.generated }
  else
    let widths := (physicalLines fragment.text.toList).map List.length
    let endColumn :=
      if widths.length = 1 then place.column + (widths.headD 0 - 1) else max (widths.getLastD 0) 1
    { Token.leaf fragment.kind fragment.text place.line place.column endColumn with
      lineSpan := widths.length, generated := fragment.generated }

/-- The position behind a fragment. -/
def next (fragment : Fragment) (place : Position) : Position :=
  if fragment.kind = .endOfLine then ⟨place.line + 1, 1⟩
  else
    let widths := (physicalLines fragment.text.toList).map List.length
    if widths.length = 1 then ⟨place.line, place.column + widths.headD 0⟩
    else ⟨place.line + (widths.length - 1), widths.getLastD 0 + 1⟩

/-- The tokens for fragments that follow each other. -/
def layOut (place : Position) : List Fragment → List Token
  | [] => []
  | fragment :: rest => fragment.token place :: layOut (fragment.next place) rest

theorem terminals_token (fragment : Fragment) (place : Position) :
    (fragment.token place).terminals = [fragment.token place] := by
  apply Token.terminals_of_not_hasChildren
  simp only [Token.hasChildren, token]
  split <;> simp [Token.leaf]

@[simp] theorem kind_token (fragment : Fragment) (place : Position) :
    (fragment.token place).kind = fragment.kind := by
  simp only [token]
  split
  · rename_i terminator
    exact terminator.symm
  · rfl

@[simp] theorem text_token (fragment : Fragment) (place : Position) :
    (fragment.token place).text = fragment.text := by
  simp only [token]
  split <;> rfl

@[simp] theorem line_token (fragment : Fragment) (place : Position) :
    (fragment.token place).line = place.line := by
  simp only [token]
  split <;> rfl

@[simp] theorem startColumn_token (fragment : Fragment) (place : Position) :
    (fragment.token place).startColumn = place.column := by
  simp only [token]
  split <;> rfl

@[simp] theorem generated_token (fragment : Fragment) (place : Position) :
    (fragment.token place).generated = fragment.generated := by
  simp only [token]
  split <;> rfl

theorem next_terminator {fragment : Fragment} (terminator : fragment.kind = .endOfLine)
    (place : Position) : fragment.next place = ⟨place.line + 1, 1⟩ := by
  rw [next, if_pos terminator]

theorem next_single {fragment : Fragment} (other : fragment.kind ≠ .endOfLine) {line}
    (lines : physicalLines fragment.text.toList = [line]) (place : Position) :
    fragment.next place = ⟨place.line, place.column + line.length⟩ := by
  simp [next, other, lines]

theorem lastWidth_several {first : List Char} {middle final} :
    ((first :: (middle ++ [final])).map List.length).getLastD 0 = final.length := by
  rw [← List.cons_append, List.map_append, List.getLastD_eq_getLast?, List.map_singleton,
    List.getLast?_concat]
  rfl

theorem next_several {fragment : Fragment} (other : fragment.kind ≠ .endOfLine) {first middle final}
    (lines : physicalLines fragment.text.toList = first :: (middle ++ [final])) (place : Position) :
    fragment.next place = ⟨place.line + (middle.length + 1), final.length + 1⟩ := by
  simp only [next, other, if_false, lines, lastWidth_several]
  simp

theorem lineSpan_token {fragment : Fragment} (other : fragment.kind ≠ .endOfLine)
    (place : Position) :
    (fragment.token place).lineSpan = (physicalLines fragment.text.toList).length := by
  simp [token, other]

theorem endColumn_single {fragment : Fragment} (other : fragment.kind ≠ .endOfLine) {line}
    (lines : physicalLines fragment.text.toList = [line]) (place : Position) :
    (fragment.token place).endColumn = place.column + (line.length - 1) := by
  simp [token, other, lines, Token.leaf]

theorem endColumn_several {fragment : Fragment} (other : fragment.kind ≠ .endOfLine)
    {first middle final}
    (lines : physicalLines fragment.text.toList = first :: (middle ++ [final])) (place : Position) :
    (fragment.token place).endColumn = max final.length 1 := by
  simp only [token, other, if_false, lines, lastWidth_several]
  simp [Token.leaf]

theorem lineSpan_terminator {fragment : Fragment} (terminator : fragment.kind = .endOfLine)
    (place : Position) : (fragment.token place).lineSpan = 1 := by
  simp [token, terminator, Token.leaf]

theorem exists_of_mem_layOut {fragments : List Fragment} {place : Position} {token : Token}
    (member : token ∈ layOut place fragments) :
    ∃ fragment ∈ fragments, ∃ here, token = fragment.token here := by
  induction fragments generalizing place with
  | nil => cases member
  | cons fragment rest ih =>
      rcases List.mem_cons.mp member with rfl | later
      · exact ⟨fragment, List.mem_cons_self, place, rfl⟩
      · obtain ⟨found, inside, here, same⟩ := ih later
        exact ⟨found, List.mem_cons_of_mem fragment inside, here, same⟩

/-- Laying out keeps what was given of each fragment. -/
theorem map_layOut (place : Position) (fragments : List Fragment) :
    (layOut place fragments).map (fun token => ⟨token.kind, token.text, token.generated⟩) =
      fragments := by
  induction fragments generalizing place with
  | nil => rfl
  | cons fragment rest ih => simp [layOut, ih]

end Fragment

namespace Builder

/-- The leaves that calls push, in order, when `generated` is the mark in force before them. -/
def fragments (generated : Bool) : List Call → List Fragment
  | [] => []
  | .push kind text :: rest => ⟨kind, text, generated⟩ :: fragments generated rest
  | .endLine text :: rest => ⟨.endOfLine, text, generated⟩ :: fragments generated rest
  | .markTokens mark :: rest => fragments mark rest
  | .openComposite _ :: rest => fragments generated rest
  | .closeComposite :: rest => fragments generated rest
  | .markDocument _ :: rest => fragments generated rest

/-- No call closes a composite that has no token in it. -/
def ClosesFull (builder : Builder) : List Call → Prop
  | [] => True
  | call :: rest =>
    (call = .closeComposite → ∀ inner ∈ builder.pending.head?, inner.newest ≠ []) ∧
      (builder.attempt call).ClosesFull rest

instance decidableClosesFull : (builder : Builder) → (calls : List Call) →
    Decidable (builder.ClosesFull calls)
  | _, [] => .isTrue trivial
  | builder, call :: rest =>
    have := decidableClosesFull (builder.attempt call) rest
    inferInstanceAs (Decidable (_ ∧ _))

/-- Where the next character stands. -/
def position (builder : Builder) : Position :=
  ⟨builder.line, builder.column⟩

/-- A builder whose open composites are all of composite kinds, as those are that calls open. -/
def Proper (builder : Builder) : Prop :=
  ∀ inner ∈ builder.pending, inner.kind.isComposite = true

/-- The terminals of everything collected so far: the root tokens, and after them the tokens of the
open composites from the outermost inwards. -/
def terminals (builder : Builder) : List Token :=
  Token.terminalsOf builder.newest.reverse ++
    builder.pending.reverse.flatMap fun inner => Token.terminalsOf inner.newest.reverse

/-! ## One call -/

theorem terminals_append (builder : Builder) (token : Token) :
    (builder.append token).terminals = builder.terminals ++ token.terminals := by
  obtain ⟨newest, pending, line, column, generated, documentGenerated⟩ := builder
  cases pending <;> simp [append, terminals, Token.terminalsOf]

theorem proper_append {builder : Builder} (proper : builder.Proper) (token : Token) :
    (builder.append token).Proper := by
  obtain ⟨newest, pending, line, column, generated, documentGenerated⟩ := builder
  cases pending with
  | nil => exact proper
  | cons inner outer => exact List.forall_mem_cons.mpr (List.forall_mem_cons.mp proper)

/-- Takes a fragment: appends its token and goes behind it. -/
def take (builder : Builder) (fragment : Fragment) : Builder :=
  let place := fragment.next builder.position
  { builder.append (fragment.token builder.position) with
    line := place.line, column := place.column }

theorem endLine_eq (builder : Builder) (text : String) :
    builder.endLine text = builder.take ⟨.endOfLine, text, builder.generated⟩ := by
  simp [endLine, take, Fragment.token, Fragment.next, position]

/-- A push depends on the builder only through its position and its mark. -/
theorem push_eq (builder : Builder) (kind : Kind) (text : String) :
    builder.push kind text = builder.take ⟨kind, text, builder.generated⟩ := by
  by_cases terminator : kind = .endOfLine
  · subst terminator
    rw [push, if_pos rfl, endLine_eq]
  · simp only [push, terminator, if_false, take, Fragment.token, Fragment.next, position]
    split <;> rename_i single
    · simp only [append]
      split <;> rfl
    · rfl

theorem terminals_take (builder : Builder) (fragment : Fragment) :
    (builder.take fragment).terminals =
      builder.terminals ++ [fragment.token builder.position] := by
  rw [← fragment.terminals_token, ← terminals_append]
  rfl

theorem position_take (builder : Builder) (fragment : Fragment) :
    (builder.take fragment).position = fragment.next builder.position := rfl

theorem generated_take (builder : Builder) (fragment : Fragment) :
    (builder.take fragment).generated = builder.generated := by
  simp only [take, append]
  split <;> rfl

theorem proper_take {builder : Builder} (proper : builder.Proper) (fragment : Fragment) :
    (builder.take fragment).Proper :=
  proper_append proper (fragment.token builder.position)

/-- A call that pushes nothing keeps the position, and keeps the terminals unless it closes an empty
composite. -/
theorem attempt_openComposite {builder : Builder} (proper : builder.Proper) (kind : Kind) :
    let after := builder.attempt (.openComposite kind)
    after.Proper ∧ after.terminals = builder.terminals ∧ after.position = builder.position ∧
      after.generated = builder.generated := by
  by_cases composite : kind.isComposite = true
  · simp only [attempt, call, openComposite, composite, if_true]
    refine ⟨List.forall_mem_cons.mpr ⟨composite, proper⟩, ?_, rfl, trivial⟩
    simp [terminals, Token.terminalsOf]
  · simp only [attempt, call, openComposite, composite]
    exact ⟨proper, rfl, rfl, rfl⟩

/-- Without an open composite there is nothing to take away, so the failure changes nothing. -/
theorem closeComposite_of_closed {builder : Builder} (shape : builder.pending = []) :
    builder.closeComposite = (.error .nothingOpen, builder) := by
  obtain ⟨newest, pending, line, column, generated, documentGenerated⟩ := builder
  obtain rfl : pending = [] := shape
  rfl

theorem closeComposite_of_open {builder : Builder} {inner outer}
    (shape : builder.pending = inner :: outer) :
    builder.closeComposite = (.ok (), { builder with pending := outer }.append inner.token) := by
  obtain ⟨newest, pending, line, column, generated, documentGenerated⟩ := builder
  obtain rfl : pending = inner :: outer := shape
  rfl

theorem attempt_closeComposite {builder : Builder} (proper : builder.Proper)
    (full : ∀ inner ∈ builder.pending.head?, inner.newest ≠ []) :
    let after := builder.attempt .closeComposite
    after.Proper ∧ after.terminals = builder.terminals ∧ after.position = builder.position ∧
      after.generated = builder.generated := by
  obtain ⟨newest, pending, line, column, generated, documentGenerated⟩ := builder
  cases pending with
  | nil => exact ⟨proper, rfl, rfl, rfl⟩
  | cons inner outer =>
      obtain ⟨composite, properOuter⟩ := List.forall_mem_cons.mp proper
      have held : inner.newest ≠ [] := full inner rfl
      let below : Builder := ⟨newest, outer, line, column, generated, documentGenerated⟩
      have entered : inner.token.terminals = Token.terminalsOf inner.newest.reverse := by
        apply Token.terminals_of_hasChildren
        simp [OpenComposite.token, Token.hasChildren, Token.composite, composite, held]
      have moved : (below.append inner.token).position = below.position ∧
          (below.append inner.token).generated = below.generated := by
        cases outer <;> exact ⟨rfl, rfl⟩
      refine ⟨@proper_append below properOuter inner.token, ?_, moved⟩
      change (below.append inner.token).terminals = _
      rw [terminals_append, entered]
      simp [below, terminals]

/-! ## Whole runs -/

theorem run_cons (builder : Builder) (call : Call) (rest : List Call) :
    builder.run (call :: rest) = (builder.attempt call).run rest := rfl

/-- A run adds the tokens of its fragments to the walk, however it nests them. -/
theorem terminals_run {builder : Builder} {calls : List Call} (proper : builder.Proper)
    (full : builder.ClosesFull calls) :
    (builder.run calls).terminals =
      builder.terminals ++
        Fragment.layOut builder.position (fragments builder.generated calls) := by
  induction calls generalizing builder with
  | nil => simp [run, fragments, Fragment.layOut]
  | cons call rest ih =>
      obtain ⟨closes, full⟩ := full
      rw [run_cons]
      cases call with
      | push kind text =>
          have pushed : builder.attempt (.push kind text) = _ := builder.push_eq kind text
          rw [pushed] at full ⊢
          rw [ih (proper_take proper _) full, terminals_take, position_take, generated_take]
          simp [fragments, Fragment.layOut]
      | endLine text =>
          have pushed : builder.attempt (.endLine text) = _ := builder.endLine_eq text
          rw [pushed] at full ⊢
          rw [ih (proper_take proper _) full, terminals_take, position_take, generated_take]
          simp [fragments, Fragment.layOut]
      | openComposite kind =>
          obtain ⟨proper, same, place, mark⟩ := attempt_openComposite proper kind
          rw [ih proper full, same, place, mark]
          rfl
      | closeComposite =>
          obtain ⟨proper, same, place, mark⟩ := attempt_closeComposite proper (closes rfl)
          rw [ih proper full, same, place, mark]
          rfl
      | markTokens mark => exact @ih { builder with generated := mark } proper full
      | markDocument mark => exact @ih { builder with documentGenerated := mark } proper full

theorem start_proper : start.Proper :=
  List.forall_mem_nil _

theorem finish_eq_ok {builder : Builder} {document : Document}
    (finished : builder.finish = .ok document) :
    builder.pending = [] ∧ document = ⟨builder.documentGenerated, builder.newest.reverse⟩ := by
  obtain ⟨newest, pending, line, column, generated, documentGenerated⟩ := builder
  cases pending with
  | nil =>
      cases finished
      exact ⟨rfl, rfl⟩
  | cons inner outer => cases finished

theorem finish_of_closed {builder : Builder} (closed : builder.pending = []) :
    builder.finish = .ok ⟨builder.documentGenerated, builder.newest.reverse⟩ := by
  rw [finish, closed]
  rfl

theorem terminals_eq_of_finish {builder : Builder} {document : Document}
    (finished : builder.finish = .ok document) :
    Token.terminalsOf document.tokens = builder.terminals := by
  obtain ⟨closed, rfl⟩ := finish_eq_ok finished
  simp [terminals, closed]

/-- The terminals of a finished document are the tokens pushed, in order, at the positions that the
pushes alone determine. -/
theorem terminals_of_finish {calls : List Call} {document : Document}
    (full : start.ClosesFull calls) (finished : (start.run calls).finish = .ok document) :
    Token.terminalsOf document.tokens = Fragment.layOut ⟨1, 1⟩ (fragments false calls) := by
  calc
    Token.terminalsOf document.tokens = (start.run calls).terminals :=
      terminals_eq_of_finish finished
    _ = start.terminals ++ Fragment.layOut start.position (fragments start.generated calls) :=
      terminals_run start_proper full
    _ = Fragment.layOut ⟨1, 1⟩ (fragments false calls) := rfl

theorem leaves_of_finish {calls : List Call} {document : Document}
    (full : start.ClosesFull calls) (finished : (start.run calls).finish = .ok document)
    (leaves : ∀ fragment ∈ fragments false calls, fragment.kind.isLeaf = true) :
    Token.leaves document.tokens = .ok (Fragment.layOut ⟨1, 1⟩ (fragments false calls)) := by
  rw [Token.leaves_eq_ok_iff, terminals_of_finish full finished]
  refine ⟨rfl, fun token member => ?_⟩
  obtain ⟨fragment, pushed, here, rfl⟩ := Fragment.exists_of_mem_layOut member
  rw [Fragment.kind_token]
  exact leaves fragment pushed

end Builder

end TokenLayout
