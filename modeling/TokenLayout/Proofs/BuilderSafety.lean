import TokenLayout.Proofs.BuilderRun
import TokenLayout.Proofs.Validation

/-! # A builder cannot be led astray

Callers may make any calls in any order and go on after failures. Two things keep a builder safe:
a call that fails changes nothing, so only the calls that succeed count, and every call that
succeeds keeps all tokens well-formed, those of the root list and those of every open composite.
`Builder.Step` says once what a call that succeeds can do; the depth of the nesting and the
soundness of the tokens are both read off from it.
-/

namespace TokenLayout

namespace Token

mutual
theorem firstLeaf_mem (token : Token) : token.firstLeaf ∈ token.preorder := by
  obtain ⟨kind, text, line, startColumn, endColumn, lineSpan, generated, children⟩ := token
  rw [firstLeaf, preorder]
  split
  · rcases firstLeafOf_mem _ children with same | inside
    · exact same ▸ List.mem_cons_self
    · exact List.mem_cons_of_mem _ inside
  · exact List.mem_cons_self
termination_by sizeOf token

theorem firstLeafOf_mem (default : Token) (tokens : List Token) :
    firstLeafOf default tokens = default ∨ firstLeafOf default tokens ∈ preorderOf tokens := by
  cases tokens with
  | nil => exact .inl rfl
  | cons token rest => exact .inr (List.mem_append_left _ (firstLeaf_mem token))
termination_by sizeOf tokens
end

/-- A composite gets a position from its children, or the first one there is. -/
theorem line_composite_pos (kind : Kind) {children : List Token} (valid : Valid children) :
    1 ≤ (composite kind children).line := by
  cases children with
  | nil => exact Nat.le_refl 1
  | cons first rest =>
      have inside : first.firstLeaf ∈ preorderOf (first :: rest) :=
        List.mem_append_left _ first.firstLeaf_mem
      exact (defect?_eq_none_iff.mp (valid _ inside)).1

/-- From line one on, a word counts the lines up to any other line. -/
theorem lineSpan_composite_pos (kind : Kind) {children : List Token} (valid : Valid children) :
    1 ≤ (composite kind children).lineSpan := by
  let line := (composite kind children).line
  have starts : 1 ≤ line := line_composite_pos kind valid
  have one : 1 < wordBound := by decide
  have counted : ((children.getLast?.map lastLeaf).map endLine).getD line - line + 1 <
      wordBound := by
    cases children.getLast?.map lastLeaf with
    | none =>
        rw [Option.map_none, Option.getD_none, Nat.sub_self]
        exact one
    | some last =>
        have ends : last.endLine < wordBound := endLine_lt last
        rw [Option.map_some, Option.getD_some]
        omega
  exact Nat.le_trans (Nat.le_add_left 1 _) (Nat.le_of_eq (wordSum_of_lt counted).symm)

end Token

namespace Fragment

theorem valid_token (fragment : Fragment) (place : Position) (placed : 1 ≤ place.line) :
    (fragment.token place).defect? = none ∧ Token.Valid (fragment.token place).children := by
  have alone : (fragment.token place).children = [] := by
    rw [token]
    split <;> rfl
  have spans : 1 ≤ (fragment.token place).lineSpan := by
    by_cases terminator : fragment.kind = .endOfLine
    · exact Nat.le_of_eq (lineSpan_terminator terminator place).symm
    · rw [lineSpan_token terminator]
      exact List.length_pos_of_ne_nil (physicalLines_ne_nil _)
  rw [Token.defect?_eq_none_iff, line_token, alone]
  exact ⟨⟨placed, spans, absurd rfl⟩, Token.valid_nil⟩

theorem line_le_next (fragment : Fragment) (place : Position) :
    place.line ≤ (fragment.next place).line := by
  simp only [next]
  split
  · exact Nat.le_succ _
  · split
    · exact Nat.le_refl _
    · exact Nat.le_add_right _ _

end Fragment

theorem OpenComposite.valid_token {inner : OpenComposite}
    (composite : inner.kind.isComposite = true) (valid : Token.Valid inner.newest) :
    inner.token.defect? = none ∧ Token.Valid inner.token.children := by
  have owned : Token.Valid inner.newest.reverse := Token.valid_reverse.mpr valid
  refine ⟨Token.defect?_eq_none_iff.mpr ⟨?_, ?_, fun _ => composite⟩, owned⟩
  · exact Token.line_composite_pos inner.kind owned
  · exact Token.lineSpan_composite_pos inner.kind owned

namespace Builder

/-! ## One call -/

/-- What a call can do when it succeeds. -/
inductive Step (builder : Builder) : Call → Builder → Prop where
  | push {kind text} :
      Step builder (.push kind text) (builder.take ⟨kind, text, builder.generated⟩)
  | endLine {text} :
      Step builder (.endLine text) (builder.take ⟨.endOfLine, text, builder.generated⟩)
  | opened {kind} : kind.isComposite = true →
      Step builder (.openComposite kind)
        { builder with pending := ⟨kind, builder.generated, []⟩ :: builder.pending }
  | closed {inner outer} : builder.pending = inner :: outer →
      Step builder .closeComposite ({ builder with pending := outer }.append inner.token)
  | markTokens {generated} : Step builder (.markTokens generated) { builder with generated }
  | markDocument {generated} :
      Step builder (.markDocument generated) { builder with documentGenerated := generated }

theorem step_of_call {builder : Builder} {call : Call}
    (made : (builder.call call).1 = .ok ()) : builder.Step call (builder.attempt call) := by
  cases call with
  | push kind text =>
      have pushed : builder.attempt (.push kind text) = _ := builder.push_eq kind text
      exact pushed ▸ .push
  | endLine text =>
      have pushed : builder.attempt (.endLine text) = _ := builder.endLine_eq text
      exact pushed ▸ .endLine
  | openComposite kind =>
      rw [attempt]
      rw [Builder.call, openComposite] at made ⊢
      split
      · rename_i composite
        exact .opened composite
      · rename_i other
        rw [if_neg other] at made
        cases made
  | closeComposite =>
      rw [attempt]
      rw [Builder.call] at made ⊢
      cases shape : builder.pending with
      | nil =>
          rw [closeComposite_of_closed shape] at made
          cases made
      | cons inner outer =>
          rw [closeComposite_of_open shape]
          exact .closed shape
  | markTokens generated => exact .markTokens
  | markDocument generated => exact .markDocument

theorem openComposite_eq_error_iff {builder : Builder} {kind : Kind} {error : BuildError} :
    (builder.openComposite kind).1 = .error error ↔
      kind.isComposite = false ∧ error = .notComposite kind := by
  rw [openComposite]
  cases kind.isComposite with
  | true => simp
  | false =>
      exact ⟨fun failed => ⟨rfl, (Except.error.inj failed).symm⟩, fun given => given.2 ▸ rfl⟩

theorem closeComposite_eq_error_iff {builder : Builder} {error : BuildError} :
    (builder.closeComposite).1 = .error error ↔ builder.pending = [] ∧ error = .nothingOpen := by
  cases shape : builder.pending with
  | nil =>
      rw [closeComposite_of_closed shape]
      exact ⟨fun failed => ⟨rfl, (Except.error.inj failed).symm⟩, fun given => given.2 ▸ rfl⟩
  | cons inner outer => simp [closeComposite_of_open shape]

/-- A call that fails changes nothing: opening looks at the kind first, and closing fails only where
there was nothing to take away. -/
theorem attempt_of_error {builder : Builder} {call : Call} {error : BuildError}
    (failed : (builder.call call).1 = .error error) : builder.attempt call = builder := by
  cases call with
  | push | endLine | markTokens | markDocument => cases failed
  | openComposite kind =>
      obtain ⟨other, -⟩ := openComposite_eq_error_iff.mp failed
      simp [attempt, Builder.call, openComposite, other]
  | closeComposite =>
      obtain ⟨shape, -⟩ := closeComposite_eq_error_iff.mp failed
      rw [attempt, Builder.call, closeComposite_of_closed shape]

/-- What every call that succeeds keeps, a run keeps. -/
theorem run_keeps {kept : Builder → Prop}
    (step : ∀ {builder after : Builder} {call : Call}, kept builder → builder.Step call after →
      kept after)
    {builder : Builder} (first : kept builder) (calls : List Call) : kept (builder.run calls) := by
  induction calls generalizing builder with
  | nil => exact first
  | cons call rest ih =>
      rw [run_cons]
      cases made : (builder.call call).1 with
      | ok done => exact ih (step first (step_of_call made))
      | error error => exact (attempt_of_error made).symm ▸ ih first

/-! ## The calls that succeed -/

/-- The calls of a run that succeed. -/
def accepted (builder : Builder) : List Call → List Call
  | [] => []
  | call :: rest =>
    match (builder.call call).1 with
    | .ok () => call :: (builder.attempt call).accepted rest
    | .error _ => (builder.attempt call).accepted rest

theorem accepted_of_ok {builder : Builder} {call : Call}
    (made : (builder.call call).1 = .ok ()) (rest : List Call) :
    builder.accepted (call :: rest) = call :: (builder.attempt call).accepted rest := by
  rw [accepted, made]

theorem accepted_of_error {builder : Builder} {call : Call} {error : BuildError}
    (failed : (builder.call call).1 = .error error) (rest : List Call) :
    builder.accepted (call :: rest) = builder.accepted rest := by
  rw [accepted, failed]
  exact congrArg (·.accepted rest) (attempt_of_error failed)

/-- The calls that fail can be left out, and none of the others fails then. -/
theorem run_accepted (builder : Builder) (calls : List Call) :
    builder.run (builder.accepted calls) = builder.run calls ∧
      builder.accepted (builder.accepted calls) = builder.accepted calls := by
  induction calls generalizing builder with
  | nil => exact ⟨rfl, rfl⟩
  | cons call rest ih =>
      cases made : (builder.call call).1 with
      | ok done =>
          obtain ⟨same, again⟩ := ih (builder.attempt call)
          rw [accepted_of_ok made, accepted_of_ok made, again, run_cons, run_cons, same]
          exact ⟨rfl, rfl⟩
      | error error =>
          rw [accepted_of_error made, run_cons, attempt_of_error made]
          exact ih builder

/-- Does the call open a composite? -/
def Call.opens : Call → Bool
  | .openComposite _ => true
  | _ => false

/-- Does the call close a composite? -/
def Call.closes : Call → Bool
  | .closeComposite => true
  | _ => false

theorem length_pending_append (builder : Builder) (token : Token) :
    (builder.append token).pending.length = builder.pending.length := by
  rw [append]
  split <;> rename_i shape <;> simp [shape]

theorem length_pending_step {builder after : Builder} {call : Call}
    (step : builder.Step call after) (rest : List Call) :
    after.pending.length + rest.countP Call.opens + (call :: rest).countP Call.closes =
      builder.pending.length + (call :: rest).countP Call.opens + rest.countP Call.closes := by
  cases step with
  | push => simp [take, length_pending_append, Call.opens, Call.closes]
  | endLine => simp [take, length_pending_append, Call.opens, Call.closes]
  | opened composite =>
      simp only [List.countP_cons, List.length_cons, Call.opens, Call.closes]
      simp
      omega
  | closed shape =>
      simp only [List.countP_cons, length_pending_append, shape, List.length_cons, Call.opens,
        Call.closes]
      simp
      omega
  | markTokens => simp [Call.opens, Call.closes]
  | markDocument => simp [Call.opens, Call.closes]

/-- As many composites are open as were opened and not closed again. -/
theorem length_pending_run (builder : Builder) (calls : List Call) :
    (builder.run calls).pending.length + (builder.accepted calls).countP Call.closes =
      builder.pending.length + (builder.accepted calls).countP Call.opens := by
  induction calls generalizing builder with
  | nil => rfl
  | cons call rest ih =>
      cases made : (builder.call call).1 with
      | ok done =>
          have balance := length_pending_step (step_of_call made)
            ((builder.attempt call).accepted rest)
          have later := ih (builder.attempt call)
          rw [accepted_of_ok made, run_cons]
          omega
      | error error =>
          rw [accepted_of_error made, run_cons, attempt_of_error made]
          exact ih builder

/-! ## The tokens that are held -/

/-- A builder that holds no malformed token, in the root list or in an open composite, and cannot
make one. -/
structure Sound (builder : Builder) : Prop where
  proper : builder.Proper
  placed : 1 ≤ builder.line
  roots : Token.Valid builder.newest
  nested : ∀ inner ∈ builder.pending, Token.Valid inner.newest

theorem sound_start : start.Sound :=
  ⟨start_proper, Nat.le_refl 1, Token.valid_nil, List.forall_mem_nil _⟩

theorem sound_append {builder : Builder} (sound : builder.Sound) {token : Token}
    (valid : token.defect? = none ∧ Token.Valid token.children) : (builder.append token).Sound := by
  obtain ⟨proper, placed, roots, nested⟩ := sound
  have kept := proper_append proper token
  obtain ⟨newest, pending, line, column, generated, documentGenerated⟩ := builder
  cases pending with
  | nil => exact ⟨kept, placed, Token.valid_cons.mpr ⟨valid, roots⟩, nested⟩
  | cons inner outer =>
      rw [List.forall_mem_cons] at nested
      have grown : Token.Valid (token :: inner.newest) := Token.valid_cons.mpr ⟨valid, nested.1⟩
      exact ⟨kept, placed, roots, List.forall_mem_cons.mpr ⟨grown, nested.2⟩⟩

theorem sound_take {builder : Builder} (sound : builder.Sound) (fragment : Fragment) :
    (builder.take fragment).Sound := by
  have valid := fragment.valid_token builder.position sound.placed
  obtain ⟨proper, -, roots, nested⟩ := sound_append sound valid
  have later := Nat.le_trans sound.placed (fragment.line_le_next builder.position)
  exact ⟨proper, later, roots, nested⟩

theorem sound_step {builder after : Builder} {call : Call} (sound : builder.Sound)
    (step : builder.Step call after) : after.Sound := by
  cases step with
  | push => exact sound_take sound _
  | endLine => exact sound_take sound _
  | opened composite =>
      exact ⟨List.forall_mem_cons.mpr ⟨composite, sound.proper⟩, sound.placed, sound.roots,
        List.forall_mem_cons.mpr ⟨Token.valid_nil, sound.nested⟩⟩
  | @closed inner outer shape =>
      obtain ⟨proper, placed, roots, nested⟩ := sound
      rw [Proper, shape, List.forall_mem_cons] at proper
      rw [shape, List.forall_mem_cons] at nested
      have below : Sound { builder with pending := outer } := ⟨proper.2, placed, roots, nested.2⟩
      exact sound_append below (OpenComposite.valid_token proper.1 nested.1)
  | markTokens => exact ⟨sound.proper, sound.placed, sound.roots, sound.nested⟩
  | markDocument => exact ⟨sound.proper, sound.placed, sound.roots, sound.nested⟩

theorem sound_run {builder : Builder} (sound : builder.Sound) (calls : List Call) :
    (builder.run calls).Sound :=
  run_keeps sound_step sound calls

theorem valid_of_finish {builder : Builder} {document : Document} (sound : builder.Sound)
    (finished : builder.finish = .ok document) : Token.Valid document.tokens := by
  obtain ⟨-, rfl⟩ := finish_eq_ok finished
  exact Token.valid_reverse.mpr sound.roots

theorem finish_eq_error_iff {builder : Builder} {error : BuildError} :
    builder.finish = .error error ↔
      0 < builder.pending.length ∧ error = .unclosed builder.pending.length := by
  rw [finish]
  cases builder.pending.length <;> simp [eq_comm]

/-! ## Whole runs -/

/-- Which call fails, and how, behind calls of which `made` succeeded. -/
inductive Refused (made : List Call) : Call → BuildError → Prop where
  | notComposite {kind} : kind.isComposite = false →
      Refused made (.openComposite kind) (.notComposite kind)
  | nothingOpen : made.countP Call.opens = made.countP Call.closes →
      Refused made .closeComposite .nothingOpen

section Nesting

variable {builder : Builder} {made : List Call}
  (depth : builder.pending.length + made.countP Call.closes = made.countP Call.opens)

include depth

theorem call_eq_error_iff {call : Call} {error : BuildError} :
    (builder.call call).1 = .error error ↔ Refused made call error := by
  constructor
  · intro failed
    cases call with
    | push | endLine | markTokens | markDocument => cases failed
    | openComposite kind =>
        obtain ⟨other, rfl⟩ := openComposite_eq_error_iff.mp failed
        exact .notComposite other
    | closeComposite =>
        obtain ⟨closed, rfl⟩ := closeComposite_eq_error_iff.mp failed
        rw [closed, List.length_nil, Nat.zero_add] at depth
        exact .nothingOpen depth.symm
  · intro refused
    cases refused with
    | notComposite other => exact openComposite_eq_error_iff.mpr ⟨other, rfl⟩
    | nothingOpen balanced =>
        have closed : builder.pending = [] := List.eq_nil_of_length_eq_zero (by omega)
        exact closeComposite_eq_error_iff.mpr ⟨closed, rfl⟩

theorem finish_eq_error_iff_surplus {error : BuildError} :
    builder.finish = .error error ↔
      ∃ count, 0 < count ∧ made.countP Call.opens = made.countP Call.closes + count ∧
        error = .unclosed count := by
  rw [finish_eq_error_iff]
  constructor
  · intro given
    exact ⟨_, given.1, by omega, given.2⟩
  · intro given
    obtain ⟨count, positive, balance, rfl⟩ := given
    obtain rfl : count = builder.pending.length := by omega
    exact ⟨positive, rfl⟩

end Nesting

/-- Whatever calls are made, which of them fail is decided by the kinds and the nesting alone, those
that fail change nothing, and a document that is finished is valid. -/
theorem run_safe (calls : List Call) :
    let builder := start.run calls
    let made := start.accepted calls
    (∀ call error, (builder.call call).1 = .error error ↔ Refused made call error) ∧
    (∀ call error, (builder.call call).1 = .error error → (builder.call call).2 = builder) ∧
    (start.run made = builder ∧ start.accepted made = made) ∧
    (∀ error, builder.finish = .error error ↔
      ∃ count, 0 < count ∧ made.countP Call.opens = made.countP Call.closes + count ∧
        error = .unclosed count) ∧
    ∀ document, builder.finish = .ok document →
      document.validate = .ok () ∧
      ∀ token ∈ Token.preorderOf document.tokens, 1 ≤ token.line ∧ 1 ≤ token.lineSpan ∧
        (token.children ≠ [] → token.kind.isComposite = true) := by
  intro builder made
  have depth : builder.pending.length + made.countP Call.closes = made.countP Call.opens :=
    (length_pending_run start calls).trans (Nat.zero_add _)
  refine ⟨fun call error => call_eq_error_iff depth, fun call error => attempt_of_error,
    run_accepted start calls, fun error => finish_eq_error_iff_surplus depth,
    fun document finished => ?_⟩
  have valid := valid_of_finish (sound_run sound_start calls) finished
  exact ⟨Document.validate_eq_ok_iff.mpr valid,
    fun token member => Token.defect?_eq_none_iff.mp (valid token member)⟩

end Builder

end TokenLayout
