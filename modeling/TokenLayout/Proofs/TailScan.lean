import TokenLayout.Proofs.BuilderSafety
import TokenLayout.Proofs.CheckOutcome
import TokenLayout.Proofs.CompositeSpan

/-! # Blank lines at the end of a document

The look back from the end of a document goes over its root tokens as long as they are whitespace
that is not passed over. What it goes over is the longest suffix of that sort, which is a suffix of
the leaves too, and their longest unless a composite in front of it ends with whitespace. Nothing is
compared but the line of each terminator with that of the last one. In a document that was built,
every terminator at the root stands on a later line than those before it, so two of them are enough.
-/

namespace TokenLayout

/-- A suffix of tokens with a property that holds every other such suffix. -/
structure LongestSuffix (holds : Token → Bool) (tokens back : List Token) : Prop where
  isSuffix : back <:+ tokens
  inside : ∀ token ∈ back, holds token = true
  longest : ∀ other, other <:+ tokens → (∀ token ∈ other, holds token = true) → other <:+ back

section Suffixes

variable {holds : Token → Bool} {front back : List Token}

theorem rtakeWhile_append (inside : ∀ token ∈ back, holds token = true) :
    (front ++ back).rtakeWhile holds = front.rtakeWhile holds ++ back := by
  have reversed : ∀ token ∈ back.reverse, holds token = true := by simpa using inside
  rw [List.rtakeWhile, List.reverse_append, List.takeWhile_append_of_pos reversed,
    List.reverse_append, List.reverse_reverse]
  rfl

theorem longestSuffix_rtakeWhile (holds : Token → Bool) (tokens : List Token) :
    LongestSuffix holds tokens (tokens.rtakeWhile holds) := by
  refine ⟨List.rtakeWhile_suffix holds tokens, fun _ => List.mem_rtakeWhile_imp, ?_⟩
  rintro back ⟨front, rfl⟩ inside
  rw [rtakeWhile_append inside]
  exact List.suffix_append _ _

/-- A suffix is the longest exactly if the token in front of it stops it. -/
theorem longestSuffix_append_iff :
    LongestSuffix holds (front ++ back) back ↔
      (∀ token ∈ back, holds token = true) ∧ ∀ last ∈ front.getLast?, holds last = false := by
  constructor
  · intro suffix
    refine ⟨suffix.inside, fun last ends => ?_⟩
    obtain ⟨init, rfl⟩ := List.getLast?_eq_some_iff.mp ends
    by_contra more
    have longer : last :: back <:+ back := by
      apply suffix.longest
      · exact ⟨init, by simp⟩
      · exact List.forall_mem_cons.mpr ⟨by simpa using more, suffix.inside⟩
    exact absurd longer.length_le (by simp)
  · intro given
    obtain ⟨inside, stops⟩ := given
    have none_taken : front.rtakeWhile holds = [] := by
      rw [List.rtakeWhile_eq_nil_iff]
      intro written
      simp [stops _ (List.getLast?_eq_some_getLast written)]
    have same := longestSuffix_rtakeWhile holds (front ++ back)
    rwa [rtakeWhile_append inside, none_taken, List.nil_append] at same

end Suffixes

namespace Layout

/-! ## The tail among the leaves -/

/-- The whitespace that a list of tokens ends with. -/
def tail (settings : Settings) (tokens : List Token) : List Token :=
  tokens.rtakeWhile (inTail settings)

theorem isLeaf_of_inTail {settings : Settings} {token : Token}
    (inside : inTail settings token = true) : token.kind.isLeaf = true := by
  obtain ⟨blank, -⟩ := Bool.and_eq_true_iff.mp inside
  cases kind : token.kind <;> simp_all [Kind.isWhitespace, Kind.isLeaf, Kind.isComposite,
    Kind.isUnrecognized]

/-- The leaves of the tokens in front of the tail, and behind them the tail itself. -/
theorem exists_front_of_tail (settings : Settings) (roots : List Token) :
    ∃ front, roots = front ++ tail settings roots ∧
      Token.terminalsOf roots = Token.terminalsOf front ++ tail settings roots := by
  obtain ⟨front, split⟩ := List.rtakeWhile_suffix (inTail settings) roots
  have leaves : ∀ token ∈ tail settings roots, token.kind.isLeaf = true :=
    fun _ member => isLeaf_of_inTail (List.mem_rtakeWhile_imp member)
  have joined := Token.terminalsOf_append front (tail settings roots)
  rw [Token.terminalsOf_of_isLeaf leaves, tail, split] at joined
  exact ⟨front, split.symm, joined⟩

theorem tail_isSuffix (settings : Settings) (roots : List Token) :
    tail settings roots <:+ Token.terminalsOf roots := by
  obtain ⟨front, -, leaves⟩ := exists_front_of_tail settings roots
  exact ⟨Token.terminalsOf front, leaves.symm⟩

/-- The terminators of a tail also close every other list that it is a suffix of. -/
theorem closing_of_isSuffix {settings other : Settings} {roots tokens : List Token}
    (suffix : tail settings roots <:+ tokens)
    (inside : ∀ token ∈ tail settings roots, inTail other token = true) :
    closing settings roots <:+ closing other tokens :=
  ((longestSuffix_rtakeWhile (inTail other) tokens).longest _ suffix inside).filter _

theorem breach_trailingBlankLines_iff {settings : Settings} {roots leaves : List Token}
    {line : Nat} :
    Breach settings roots leaves .trailingBlankLines line ↔
      ∃ last, (closing settings roots).getLast? = some last ∧ line = last.line ∧
        ∃ token ∈ closing settings roots, token.line < last.line := by
  constructor
  · intro broken
    cases broken with
    | blankLines ends member before => exact ⟨_, ends, rfl, _, member, before⟩
  · rintro ⟨last, ends, rfl, token, member, before⟩
    exact .blankLines ends member before

/-- More terminators that close a list break the same line, as long as the last one stays. -/
theorem Breach.blankLines_of_isSuffix {settings other : Settings}
    {roots tokens leaves : List Token} {line : Nat}
    (broken : Breach settings roots leaves .trailingBlankLines line)
    (suffix : closing settings roots <:+ closing other tokens) :
    Breach other tokens leaves .trailingBlankLines line := by
  rw [breach_trailingBlankLines_iff] at broken ⊢
  obtain ⟨last, ends, same, token, member, before⟩ := broken
  refine ⟨last, ?_, same, token, suffix.subset member, before⟩
  obtain ⟨front, split⟩ := suffix
  rw [← split, List.getLast?_append, ends]
  rfl

/-- The tail of the roots is that of the leaves exactly if no composite in front of it ends with
whitespace. -/
theorem longestSuffix_terminalsOf (settings : Settings) (roots : List Token) :
    LongestSuffix (inTail settings) (Token.terminalsOf roots) (tail settings roots) ↔
      ∀ front token, roots = front ++ token :: tail settings roots →
        token.kind.isComposite = true → inTail settings token.lastLeaf = false := by
  have longest := longestSuffix_rtakeWhile (inTail settings) roots
  obtain ⟨front, split, leaves⟩ := exists_front_of_tail settings roots
  rw [leaves]
  change LongestSuffix _ _ (tail settings roots) at longest
  -- The tail is a list of its own from here on, so that the roots can be taken apart around it.
  generalize tail settings roots = back at longest split ⊢
  subst split
  obtain ⟨inside, stops⟩ := longestSuffix_append_iff.mp longest
  rw [longestSuffix_append_iff, Token.getLast?_terminalsOf]
  constructor
  · intro given before token same composite
    obtain rfl : front = before ++ [token] :=
      List.append_cancel_right (same.trans (List.append_cons before token back))
    exact given.2 token.lastLeaf (by simp)
  · intro plain
    refine ⟨inside, fun last ends => ?_⟩
    obtain ⟨token, before, rfl⟩ := Option.map_eq_some_iff.mp ends
    cases composite : token.kind.isComposite with
    | true =>
        obtain ⟨init, rfl⟩ := List.getLast?_eq_some_iff.mp before
        exact plain init token (by simp) composite
    | false =>
        rw [Token.lastLeaf_of_not_isComposite composite]
        exact stops token before

/-! ## What is reported -/

/-- There is one finding on blank lines or none; it is on the line of the last terminator. -/
theorem filter_blankLines {settings : Settings} {roots leaves : List Token}
    {violations : List Violation} (once : (violations.map Violation.key).Nodup)
    (found : ∀ violation, violation ∈ violations ↔
      Breach settings roots leaves violation.rule violation.line ∧
        violation.context = contextOf settings violation.rule) :
    violations.filter (·.rule = .trailingBlankLines) =
      (closing settings roots).getLast?.elim [] fun last =>
        if ∃ token ∈ closing settings roots, token.line < last.line then
          [.plain .trailingBlankLines last.line]
        else [] := by
  have shown : ∀ violation ∈ violations, violation.rule = .trailingBlankLines →
      ∃ last, (closing settings roots).getLast? = some last ∧ violation.line = last.line ∧
        ∃ token ∈ closing settings roots, token.line < last.line := by
    intro violation member rule
    obtain ⟨broken, -⟩ := (found violation).mp member
    rw [rule] at broken
    exact breach_trailingBlankLines_iff.mp broken
  by_cases crowded : ∃ last, (closing settings roots).getLast? = some last ∧
      ∃ token ∈ closing settings roots, token.line < last.line
  · obtain ⟨last, ends, earlier⟩ := crowded
    have reported : .plain .trailingBlankLines last.line ∈ violations :=
      (found _).mpr ⟨breach_trailingBlankLines_iff.mpr ⟨last, ends, rfl, earlier⟩, rfl⟩
    rw [ends, Option.elim_some, if_pos earlier, ← Violation.filter_key_of_mem once reported]
    -- The rule alone decides the key, as there is only one line to report.
    apply List.filter_congr
    intro violation inside
    rw [decide_eq_decide]
    constructor
    · intro rule
      obtain ⟨same, other, line, -⟩ := shown violation inside rule
      obtain rfl := Option.some.inj (ends.symm.trans other)
      exact Prod.ext rule line
    · intro key
      exact congrArg Prod.fst key
  · have none_found : violations.filter (·.rule = .trailingBlankLines) = [] := by
      rw [List.filter_eq_nil_iff]
      intro violation member rule
      obtain ⟨last, ends, -, earlier⟩ := shown violation member (of_decide_eq_true rule)
      exact crowded ⟨last, ends, earlier⟩
    rw [none_found]
    cases ends : (closing settings roots).getLast? with
    | none => rfl
    | some last => exact (if_neg fun earlier => crowded ⟨last, ends, earlier⟩).symm

end Layout

/-! ## Documents that were built -/

namespace Builder

/-- The lines of the terminators among tokens. -/
def terminatorLines (tokens : List Token) : List Nat :=
  (tokens.filter (·.kind = .endOfLine)).map Token.line

/-- Every terminator at the root stands on a later line than those before it, and the next character
on a later one still. -/
structure Climbs (builder : Builder) : Prop where
  proper : builder.Proper
  lines : (builder.line :: terminatorLines builder.newest).Pairwise (· > ·)

theorem climbs_start : start.Climbs :=
  ⟨start_proper, List.pairwise_singleton _ _⟩

theorem terminatorLines_append {token : Token} (other : token.kind ≠ .endOfLine)
    (builder : Builder) :
    terminatorLines (builder.append token).newest = terminatorLines builder.newest := by
  rw [append]
  split
  · simp [terminatorLines, other]
  · rfl

theorem pairwise_raise {low high : Nat} {lines : List Nat} (raised : low ≤ high)
    (climbs : (low :: lines).Pairwise (· > ·)) : (high :: lines).Pairwise (· > ·) := by
  obtain ⟨below, apart⟩ := List.pairwise_cons.mp climbs
  refine List.pairwise_cons.mpr ⟨fun line member => ?_, apart⟩
  have := below line member
  omega

theorem climbs_take {builder : Builder} (climbs : builder.Climbs) (fragment : Fragment) :
    (builder.take fragment).Climbs := by
  refine ⟨proper_take climbs.proper fragment, ?_⟩
  obtain ⟨-, lines⟩ := climbs
  by_cases terminator : fragment.kind = .endOfLine
  · have next : (builder.take fragment).line = builder.line + 1 :=
      congrArg Position.line (Fragment.next_terminator terminator builder.position)
    rw [next]
    obtain ⟨newest, pending, line, column, generated, documentGenerated⟩ := builder
    cases pending with
    | nil =>
        -- The terminator itself comes between the next line and the older ones.
        have grown : terminatorLines
            (take ⟨newest, [], line, column, generated, documentGenerated⟩ fragment).newest =
              line :: terminatorLines newest := by
          simp [terminatorLines, take, append, terminator, position]
        have above := (List.pairwise_cons.mp (pairwise_raise (Nat.le_succ line) lines)).1
        rw [grown]
        exact List.pairwise_cons.mpr
          ⟨List.forall_mem_cons.mpr ⟨Nat.lt_succ_self line, above⟩, lines⟩
    | cons inner outer => exact pairwise_raise (Nat.le_succ line) lines
  · have other : (fragment.token builder.position).kind ≠ .endOfLine := by simpa using terminator
    have same : terminatorLines (builder.take fragment).newest = terminatorLines builder.newest :=
      terminatorLines_append other builder
    rw [same]
    exact pairwise_raise (fragment.line_le_next builder.position) lines

theorem climbs_step {builder after : Builder} {call : Call} (climbs : builder.Climbs)
    (step : builder.Step call after) : after.Climbs := by
  cases step with
  | push => exact climbs_take climbs _
  | endLine => exact climbs_take climbs _
  | opened composite =>
      exact ⟨List.forall_mem_cons.mpr ⟨composite, climbs.proper⟩, climbs.lines⟩
  | @closed inner outer shape =>
      obtain ⟨proper, lines⟩ := climbs
      rw [Proper, shape, List.forall_mem_cons] at proper
      have other : inner.token.kind ≠ .endOfLine := by
        intro terminator
        have composite : inner.token.kind.isComposite = true := proper.1
        rw [terminator] at composite
        cases composite
      refine ⟨@proper_append { builder with pending := outer } proper.2 inner.token, ?_⟩
      have stays : ({ builder with pending := outer }.append inner.token).line = builder.line := by
        rw [append]
        split <;> rfl
      rw [stays, terminatorLines_append other]
      exact lines
  | markTokens => exact ⟨climbs.proper, climbs.lines⟩
  | markDocument => exact ⟨climbs.proper, climbs.lines⟩

theorem terminators_of_finish {calls : List Call} {document : Document}
    (finished : (start.run calls).finish = .ok document) :
    (document.tokens.filter (·.kind = .endOfLine)).Pairwise fun a b => a.line < b.line := by
  have climbs := run_keeps climbs_step climbs_start calls
  obtain ⟨-, rfl⟩ := finish_eq_ok finished
  rw [List.filter_reverse, List.pairwise_reverse]
  exact List.pairwise_map.mp (List.pairwise_cons.mp climbs.lines).2

end Builder

namespace Layout

/-- Where terminators stand on later and later lines, all but one come before the last. -/
theorem exists_before_last_iff {terminators : List Token}
    (apart : terminators.Pairwise fun a b => a.line < b.line) :
    (∃ last, terminators.getLast? = some last ∧ ∃ token ∈ terminators, token.line < last.line) ↔
      2 ≤ terminators.length := by
  rcases List.eq_nil_or_concat terminators with rfl | ⟨init, last, rfl⟩
  · simp
  · rw [List.concat_eq_append] at *
    cases init with
    | nil => simp
    | cons first middle =>
        have before : first.line < last.line :=
          (List.pairwise_append.mp apart).2.2 first List.mem_cons_self last List.mem_cons_self
        simp only [List.length_append, List.length_cons]
        refine ⟨fun _ => by omega, fun _ => ?_⟩
        exact ⟨last, List.getLast?_concat, first, List.mem_cons_self, before⟩

theorem closing_sublist (settings : Settings) (roots : List Token) :
    (closing settings roots).Sublist (roots.filter (·.kind = .endOfLine)) :=
  (List.rtakeWhile_suffix (inTail settings) roots).sublist.filter _

end Layout

namespace Document

/-- The look back from the end reports exactly what the longest run of whitespace there shows. That
run stands at the end of the leaves as well, and in a document that was built any two terminators in
it are too many. -/
theorem checkLayout_tailScan (document : Document) (settings : Settings) :
    let tail := Layout.tail settings document.tokens
    let terminators := tail.filter (·.kind = .endOfLine)
    LongestSuffix (Layout.inTail settings) document.tokens tail ∧
    (∀ violations, settings.excludes document.generated = false →
      document.checkLayout settings = .ok violations →
      violations.filter (·.rule = .trailingBlankLines) =
        (terminators.getLast?.elim [] fun last =>
          if ∃ token ∈ terminators, token.line < last.line then
            [.plain .trailingBlankLines last.line]
          else []) ∧
      ∃ leaves, Token.leaves document.tokens = .ok leaves ∧ tail <:+ leaves ∧
        (LongestSuffix (Layout.inTail settings) leaves tail ↔
          ∀ front token, document.tokens = front ++ token :: tail →
            token.kind.isComposite = true → Layout.inTail settings token.lastLeaf = false)) ∧
    ∀ calls, (Builder.start.run calls).finish = .ok document →
      ((∃ last, terminators.getLast? = some last ∧ ∃ token ∈ terminators, token.line < last.line) ↔
        2 ≤ terminators.length) := by
  intro tail terminators
  refine ⟨longestSuffix_rtakeWhile _ _, fun violations kept checked => ⟨?_, ?_⟩,
    fun calls finished => ?_⟩
  · obtain ⟨once, found⟩ := mem_checkLayout checked kept
    exact Layout.filter_blankLines once found
  · have drained := leaves_of_checkLayout checked kept
    exact ⟨_, drained, Layout.tail_isSuffix settings document.tokens,
      Layout.longestSuffix_terminalsOf settings document.tokens⟩
  · have apart := (Builder.terminators_of_finish finished).sublist
      (Layout.closing_sublist settings document.tokens)
    exact Layout.exists_before_last_iff apart

/-- Three terminators of which the first is hidden in a composite. -/
def emptyLines : List Builder.Call :=
  [.openComposite .header, .push .plain "x", .endLine "\n", .closeComposite, .endLine "\n",
    .push .whitespace " ", .endLine "\r\n"]

theorem checkLayout_tailScan_emptyLines :
    ∃ document violations, (Builder.start.run emptyLines).finish = .ok document ∧
      document.checkLayout .default = .ok violations ∧
      violations.filter (·.rule = .trailingBlankLines) = [.plain .trailingBlankLines 3] ∧
      ¬ LongestSuffix (Layout.inTail .default) (Token.terminalsOf document.tokens)
        (Layout.tail .default document.tokens) ∧
      ∃ last, (Layout.closing .default document.tokens).getLast? = some last ∧
        ∃ token ∈ Layout.closing .default document.tokens, token.line < last.line := by
  let document : Document := ⟨false, (Builder.start.run emptyLines).newest.reverse⟩
  let hidden : Token :=
    .composite .header [Token.leaf .plain "x" 1 1 1, Token.leaf .endOfLine "\n" 1 2 2]
  obtain ⟨-, scanned, crowded⟩ := checkLayout_tailScan document .default
  obtain ⟨violations, checked⟩ :=
    @checkLayout_of_no_misfit document .default (by decide) rfl (by decide)
  obtain ⟨reported, leaves, drained, -, longest⟩ := scanned violations rfl checked
  obtain ⟨rfl, -⟩ := Token.leaves_eq_ok_iff.mp drained
  refine ⟨document, violations, rfl, checked, reported.trans (by decide), fun same => ?_,
    (crowded emptyLines rfl).mpr (by decide)⟩
  have blank : Layout.inTail .default hidden.lastLeaf = false :=
    longest.mp same [] hidden (by decide) rfl
  cases blank

end Document

end TokenLayout
