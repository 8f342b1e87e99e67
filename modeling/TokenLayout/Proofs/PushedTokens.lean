import TokenLayout.Proofs.SourcePositions

/-! # Pushed tokens stand where the source text puts them

Right after a push the newest token of the innermost open list is the one that the push created.
`Builder.created` follows a run and collects these tokens. They depend on the pushes alone, stay in
the document in their order, and begin and end where the joined text of the pushes says. Composites
may be closed empty here, and tokens of any kind may be pushed: neither moves a token.
-/

namespace TokenLayout

namespace Fragment

/-- A fragment whose last character does not end a line stops right before the next position. -/
theorem end_of_plain {fragment : Fragment} {c : Char} (other : fragment.kind ≠ .endOfLine)
    (last : fragment.text.toList.getLast? = some c) (plain : isTerminator c = false)
    (place : Position) :
    (fragment.token place).line + ((fragment.token place).lineSpan - 1) =
        (fragment.next place).line ∧
      (fragment.token place).endColumn + 1 = (fragment.next place).column := by
  obtain ⟨init, final, lines⟩ := exists_lines_concat fragment.text.toList
  have held : 0 < final.length := by
    have ends := getLast?_last_of_plain plain last lines
    exact List.length_pos_of_mem (List.mem_of_getLast? ends)
  cases init with
  | nil =>
      rw [line_token, lineSpan_token other, endColumn_single other lines, next_single other lines,
        lines]
      exact ⟨rfl, by simp only; omega⟩
  | cons first middle =>
      rw [line_token, lineSpan_token other, endColumn_several other lines,
        next_several other lines, lines]
      simp only [List.cons_append, List.length_cons, List.length_append, List.length_nil]
      omega

/-- Every fragment is laid out at the position behind the text before it. -/
theorem layOut_at {fragments : List Fragment} {front : List Char}
    (ends : ∀ fragment ∈ fragments, fragment.kind = .endOfLine → fragment.text ∈ lineEnds)
    (joins : Joins front fragments) {i : Nat} {fragment : Fragment}
    (pushed : fragments[i]? = some fragment) :
    (layOut (.ofText front) fragments)[i]? =
        some (fragment.token (.ofText (front ++ source (fragments.take i)))) ∧
      Seamless (front ++ source (fragments.take i)) fragment.text.toList := by
  induction fragments generalizing front i with
  | nil => cases pushed
  | cons head rest ih =>
      obtain ⟨apart, joins⟩ := joins
      rw [List.forall_mem_cons] at ends
      cases i with
      | zero =>
          obtain rfl : head = fragment := by simpa using pushed
          simpa [layOut, source] using apart
      | succ i =>
          have later := ih ends.2 joins (by simpa using pushed)
          rw [layOut, next_ofText ends.1 apart]
          simpa [source] using later

end Fragment

namespace Builder

/-- The tokens of the innermost open list, the newest first. -/
def innermost (builder : Builder) : List Token :=
  match builder.pending with
  | [] => builder.newest
  | inner :: _ => inner.newest

/-- Does the call push a token? -/
def Call.pushes : Call → Bool
  | .push _ _ => true
  | .endLine _ => true
  | _ => false

/-- The tokens that the pushes among the calls create, in order: after each push, the newest token
of the innermost open list. -/
def created (builder : Builder) : List Call → List Token
  | [] => []
  | call :: rest =>
    let after := builder.attempt call
    if call.pushes then after.innermost.take 1 ++ after.created rest else after.created rest

/-! ## One call -/

theorem innermost_take (builder : Builder) (fragment : Fragment) :
    (builder.take fragment).innermost = fragment.token builder.position :: builder.innermost := by
  obtain ⟨newest, pending, line, column, generated, documentGenerated⟩ := builder
  cases pending <;> rfl

/-- A push takes a fragment, whichever of the two calls makes it. -/
theorem attempt_pushes (builder : Builder) {call : Call} (pushes : call.pushes = true)
    (rest : List Call) :
    ∃ fragment, builder.attempt call = builder.take fragment ∧
      fragments builder.generated (call :: rest) =
        fragment :: fragments builder.generated rest ∧
      builder.created (call :: rest) =
        fragment.token builder.position :: (builder.take fragment).created rest := by
  have taken : ∃ fragment, builder.attempt call = builder.take fragment ∧
      fragments builder.generated (call :: rest) =
        fragment :: fragments builder.generated rest := by
    cases call with
    | push kind text => exact ⟨_, builder.push_eq kind text, rfl⟩
    | endLine text => exact ⟨_, builder.endLine_eq text, rfl⟩
    | openComposite | closeComposite | markTokens | markDocument => cases pushes
  obtain ⟨fragment, same, given⟩ := taken
  refine ⟨fragment, same, given, ?_⟩
  rw [created, same, if_pos pushes, innermost_take]
  rfl

/-- Closing a composite keeps the position and the terminals there are. Only a composite without a
token becomes a terminal itself, behind all others. -/
theorem closeComposite_keeps {builder : Builder} (proper : builder.Proper) :
    let after := builder.attempt .closeComposite
    after.Proper ∧ builder.terminals.Sublist after.terminals ∧ after.position = builder.position ∧
      after.generated = builder.generated := by
  by_cases full : ∀ inner ∈ builder.pending.head?, inner.newest ≠ []
  · obtain ⟨proper, same, stays⟩ := attempt_closeComposite proper full
    exact ⟨proper, same ▸ List.Sublist.refl _, stays⟩
  · obtain ⟨newest, pending, line, column, generated, documentGenerated⟩ := builder
    cases pending with
    | nil => exact absurd (by simp) full
    | cons inner outer =>
        obtain ⟨kind, mark, tokens⟩ := inner
        obtain rfl : tokens = [] := by simpa using full
        let below : Builder := ⟨newest, outer, line, column, generated, documentGenerated⟩
        let closed : Token := { Token.composite kind [] with generated := mark }
        have same : below.terminals = terminals
            ⟨newest, ⟨kind, mark, []⟩ :: outer, line, column, generated, documentGenerated⟩ := by
          simp [below, terminals, Token.terminalsOf]
        have stays : (below.append closed).position = below.position ∧
            (below.append closed).generated = below.generated := by
          cases outer <;> exact ⟨rfl, rfl⟩
        refine ⟨@proper_append below (List.forall_mem_cons.mp proper).2 closed, ?_, stays⟩
        rw [← same]
        exact terminals_append below closed ▸ List.sublist_append_left _ _

/-! ## Whole runs -/

/-- What a run creates depends on its pushes alone. -/
theorem created_eq {builder : Builder} (proper : builder.Proper) (calls : List Call) :
    builder.created calls =
      Fragment.layOut builder.position (fragments builder.generated calls) := by
  induction calls generalizing builder with
  | nil => rfl
  | cons call rest ih =>
      cases pushes : call.pushes with
      | true =>
          obtain ⟨fragment, -, given, creates⟩ := builder.attempt_pushes pushes rest
          rw [creates, given, ih (proper_take proper fragment), position_take, generated_take]
          rfl
      | false =>
          cases call with
          | push | endLine => cases pushes
          | openComposite kind =>
              obtain ⟨proper, -, place, mark⟩ := attempt_openComposite proper kind
              rw [created, ih proper, place, mark]
              rfl
          | closeComposite =>
              obtain ⟨proper, -, place, mark⟩ := closeComposite_keeps proper
              rw [created, ih proper, place, mark]
              rfl
          | markTokens mark => exact @ih { builder with generated := mark } proper
          | markDocument mark => exact @ih { builder with documentGenerated := mark } proper

/-- What a run creates stays in the walk, in order, however the run nests it. -/
theorem created_sublist {builder : Builder} (proper : builder.Proper) (calls : List Call) :
    (builder.terminals ++ builder.created calls).Sublist (builder.run calls).terminals := by
  induction calls generalizing builder with
  | nil => simp [created, run]
  | cons call rest ih =>
      rw [run_cons]
      cases pushes : call.pushes with
      | true =>
          obtain ⟨fragment, taken, -, creates⟩ := builder.attempt_pushes pushes rest
          have later := ih (proper_take proper fragment)
          rw [terminals_take, List.append_assoc] at later
          rw [taken, creates]
          exact later
      | false =>
          cases call with
          | push | endLine => cases pushes
          | openComposite kind =>
              obtain ⟨proper, same, -⟩ := attempt_openComposite proper kind
              have later := ih proper
              rw [same] at later
              exact later
          | closeComposite =>
              obtain ⟨proper, kept, -⟩ := closeComposite_keeps proper
              exact (kept.append_right _).trans (ih proper)
          | markTokens mark => exact @ih { builder with generated := mark } proper
          | markDocument mark => exact @ih { builder with documentGenerated := mark } proper

/-- Every push creates a token of the finished document that begins behind the text pushed before
it, and ends with the text up to its own end unless that is a line end. Its last line is the one
that `Token.endLine` computes as soon as that line is a word, as it is for any text in memory. -/
theorem created_at_source (calls : List Call) (document : Document)
    (finished : (start.run calls).finish = .ok document)
    (ends : ∀ fragment ∈ fragments false calls,
      fragment.kind = .endOfLine → fragment.text ∈ lineEnds)
    (joins : Fragment.Joins [] (fragments false calls)) :
    (start.created calls).Sublist (Token.terminalsOf document.tokens) ∧
    ∀ i fragment, (fragments false calls)[i]? = some fragment →
      let before := Fragment.source ((fragments false calls).take i)
      let after := before ++ fragment.text.toList
      ∃ token, (start.created calls)[i]? = some token ∧
        token.kind = fragment.kind ∧ token.text = fragment.text ∧
        token.line = (physicalLines before).length ∧
        token.startColumn = 1 + ((physicalLines before).getLastD []).length ∧
        ∀ c, fragment.text.toList.getLast? = some c → isTerminator c = false →
          token.line + (token.lineSpan - 1) = (physicalLines after).length ∧
          ((physicalLines after).length < wordBound →
            token.endLine = (physicalLines after).length) ∧
          token.endColumn = ((physicalLines after).getLastD []).length := by
  constructor
  · rw [terminals_eq_of_finish finished]
    exact created_sublist start_proper calls
  · intro i fragment pushed before after
    obtain ⟨placed, apart⟩ := Fragment.layOut_at ends joins pushed
    rw [List.nil_append] at placed apart
    have made := congrArg (·[i]?) (created_eq start_proper calls)
    refine ⟨fragment.token (.ofText before), made.trans placed, fragment.kind_token _,
      fragment.text_token _, fragment.line_token _, ?_, ?_⟩
    · rw [Fragment.startColumn_token, Position.ofText, Nat.add_comm]
    · intro c last plain
      have other : fragment.kind ≠ .endOfLine := by
        intro terminator
        have broken := ends fragment (List.mem_of_getElem? pushed) terminator
        simp only [lineEnds, List.mem_cons, List.not_mem_nil, or_false] at broken
        rcases broken with same | same | same <;>
          · rw [same] at last
            obtain rfl := Option.some.inj last
            cases plain
      obtain ⟨line, column⟩ := Fragment.end_of_plain other last plain (.ofText before)
      rw [Fragment.next_ofText (ends fragment (List.mem_of_getElem? pushed)) apart] at line column
      refine ⟨line, fun word => ?_, Nat.succ.inj column⟩
      exact (wordSum_of_lt (line.trans_lt word)).trans line

/-- Calls with a push of each unusual sort: an empty text, a composite kind with a line end in its
text, and a terminator and a blank run inside a composite, behind one that is closed empty. -/
def outline : List Call :=
  [.push .plain "", .openComposite .header, .closeComposite, .push .genericType "a\rb",
    .markTokens true, .openComposite .typeReference, .endLine "\r\n", .push .whitespace "\t\t",
    .closeComposite]

theorem created_at_source_outline :
    (∃ token, (start.created outline)[1]? = some token ∧ token.line = 1 ∧ token.endLine = 2 ∧
      token.endColumn = 1) ∧
    ∃ token, (start.created outline)[3]? = some token ∧ token.line = 3 ∧ token.startColumn = 1 ∧
      token.endColumn = 2 := by
  have joins : Fragment.Joins [] (fragments false outline) :=
    ⟨by decide, by decide, by decide, by decide, trivial⟩
  obtain ⟨-, placed⟩ := created_at_source outline _ rfl (by decide) joins
  obtain ⟨one, first, -, -, line, -, stops⟩ := placed 1 ⟨.genericType, "a\rb", false⟩ rfl
  obtain ⟨-, endLine, endColumn⟩ := stops 'b' (by decide) (by decide)
  obtain ⟨two, second, -, -, line', column', stops'⟩ := placed 3 ⟨.whitespace, "\t\t", true⟩ rfl
  obtain ⟨-, -, endColumn'⟩ := stops' '\t' (by decide) (by decide)
  exact ⟨⟨one, first, line, endLine (by decide), endColumn⟩, two, second, line', column', endColumn'⟩

end Builder

end TokenLayout
