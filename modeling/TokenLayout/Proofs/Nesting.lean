import TokenLayout.Proofs.PushedTokens
import TokenLayout.Proofs.TailScan

/-! # Nesting does not show in the findings

Two runs push the same leaves, one of them into composites. Their documents have the same leaves at
the same positions, so the way through the leaves finds the same in both. Only the look back from
the end goes over the root tokens themselves: a composite stops it, and so nesting can hide blank
lines at the end of a document, but never adds or moves one.
-/

namespace TokenLayout

namespace Layout

/-- The terminators that close a list of roots also close the list of its leaves, behind those that
a composite hides. -/
theorem closing_isSuffix (settings : Settings) (roots : List Token) :
    closing settings roots <:+ closing settings (Token.terminalsOf roots) :=
  closing_of_isSuffix (tail_isSuffix settings roots) fun _ => List.mem_rtakeWhile_imp

/-- Blank lines that are seen from the roots are seen from the leaves. -/
theorem breach_blankLines_terminals {settings : Settings} {roots leaves : List Token} {line : Nat}
    (broken : Breach settings roots leaves .trailingBlankLines line) :
    Breach settings (Token.terminalsOf roots) leaves .trailingBlankLines line :=
  broken.blankLines_of_isSuffix (closing_isSuffix settings roots)

/-- Without blank lines at the end, the findings depend on the leaves alone. -/
theorem filter_findings (settings : Settings) (roots leaves : List Token) (last : Token) :
    (findings settings roots leaves last).filter (·.rule ≠ .trailingBlankLines) =
      (forward settings none leaves ++ finalNewline settings last).filter
        (·.rule ≠ .trailingBlankLines) := by
  have hidden : (blankTail settings none roots.reverse).filter
      (·.rule ≠ .trailingBlankLines) = [] := by
    rw [List.filter_eq_nil_iff]
    intro violation member
    obtain ⟨last, -, -, rfl⟩ := mem_blankTail.mp member
    simp [Violation.plain]
  rw [findings, List.filter_append, List.filter_append, hidden, List.append_nil,
    List.filter_append]

end Layout

namespace Document

/-- A document and the document of its leaves get the same findings, but for blank lines at the end,
which the composites may hide. -/
theorem checkLayout_flat {document : Document} {leaves : List Token}
    (drained : Token.leaves document.tokens = .ok leaves) (written : leaves ≠ [])
    (settings : Settings) :
    ∃ nested plain, document.checkLayout settings = .ok nested ∧
      checkLayout ⟨document.generated, leaves⟩ settings = .ok plain ∧
      nested.filter (·.rule ≠ .trailingBlankLines) =
        plain.filter (·.rule ≠ .trailingBlankLines) ∧
      ∀ violation ∈ nested, violation.rule = .trailingBlankLines → violation ∈ plain := by
  obtain ⟨rfl, kinds⟩ := Token.leaves_eq_ok_iff.mp drained
  have rooted : document.tokens ≠ [] := by
    intro absent
    rw [absent] at written
    exact written rfl
  cases kept : settings.excludes document.generated with
  | true =>
      refine ⟨[], [], ?_, ?_, rfl, nofun⟩
      · simp [checkLayout, isEmpty, rooted, kept]
      · simp [checkLayout, isEmpty, written, kept]
  | false =>
      have again := Token.leaves_eq_ok_iff.mpr ⟨(Token.terminalsOf_of_isLeaf kinds).symm, kinds⟩
      obtain ⟨last, ends⟩ := Option.ne_none_iff_exists'.mp (mt List.getLast?_eq_none_iff.mp written)
      obtain ⟨nested, checked, -, found⟩ := checkLayout_of_leaves rooted kept drained
      obtain ⟨plain, checked', -, found'⟩ :=
        @checkLayout_of_leaves ⟨document.generated, _⟩ settings _ written kept again
      refine ⟨nested, plain, checked, checked', ?_, fun violation member rule => ?_⟩
      · have same := checkLayout_eq_ok rooted kept drained ends
        have same' :=
          @checkLayout_eq_ok ⟨document.generated, _⟩ settings _ _ written kept again ends
        rw [Except.ok.inj (checked.symm.trans same), Except.ok.inj (checked'.symm.trans same'),
          Violation.filter_distinct (· ≠ .trailingBlankLines),
          Violation.filter_distinct (· ≠ .trailingBlankLines), Layout.filter_findings,
          Layout.filter_findings]
      · obtain ⟨broken, context⟩ := (found violation).mp member
        rw [rule] at broken
        exact (found' violation).mpr ⟨rule ▸ Layout.breach_blankLines_terminals broken, context⟩

end Document

namespace Builder

/-- Does the call open or close a composite? -/
def Call.nests : Call → Bool
  | .openComposite _ => true
  | .closeComposite => true
  | _ => false

/-- The calls without those that open or close composites. -/
def flattened (calls : List Call) : List Call :=
  calls.filter (!·.nests)

theorem fragments_flattened (generated : Bool) (calls : List Call) :
    fragments generated (flattened calls) = fragments generated calls := by
  induction calls generalizing generated with
  | nil => rfl
  | cons call rest ih =>
      cases call with
      | push kind text => exact congrArg (⟨kind, text, generated⟩ :: ·) (ih generated)
      | endLine text => exact congrArg (⟨.endOfLine, text, generated⟩ :: ·) (ih generated)
      | openComposite kind => exact ih generated
      | closeComposite => exact ih generated
      | markTokens mark => exact ih mark
      | markDocument mark => exact ih generated

theorem documentGenerated_append (builder : Builder) (token : Token) :
    (builder.append token).documentGenerated = builder.documentGenerated := by
  rw [append]
  split <;> rfl

theorem documentGenerated_nests {builder : Builder} {call : Call} (nests : call.nests = true) :
    (builder.attempt call).documentGenerated = builder.documentGenerated := by
  cases call with
  | openComposite kind => cases composite : kind.isComposite <;>
      simp [attempt, Builder.call, openComposite, composite]
  | closeComposite =>
      obtain ⟨newest, pending, line, column, generated, documentGenerated⟩ := builder
      cases pending with
      | nil => rfl
      | cons inner outer => exact documentGenerated_append _ _
  | push | endLine | markTokens | markDocument => cases nests

theorem documentGenerated_take (builder : Builder) (fragment : Fragment) :
    (builder.take fragment).documentGenerated = builder.documentGenerated :=
  documentGenerated_append builder _

theorem take_of_closed {builder : Builder} (closed : builder.pending = []) (fragment : Fragment) :
    (builder.take fragment).pending = [] ∧
      (builder.take fragment).newest = fragment.token builder.position :: builder.newest := by
  obtain ⟨newest, pending, line, column, generated, documentGenerated⟩ := builder
  cases closed
  exact ⟨rfl, rfl⟩

theorem flattened_cons (call : Call) (rest : List Call) :
    flattened (call :: rest) = if call.nests then flattened rest else call :: flattened rest := by
  cases nests : call.nests <;> simp [flattened, nests]

theorem documentGenerated_flattened {one two : Builder}
    (same : one.documentGenerated = two.documentGenerated) (calls : List Call) :
    (one.run calls).documentGenerated = (two.run (flattened calls)).documentGenerated := by
  induction calls generalizing one two with
  | nil => exact same
  | cons call rest ih =>
      cases nests : call.nests with
      | true =>
          rw [flattened_cons, if_pos nests, run_cons]
          exact ih ((documentGenerated_nests nests).trans same)
      | false =>
          rw [flattened_cons, nests]
          apply ih
          cases call with
          | openComposite | closeComposite => cases nests
          | push kind text =>
              simp only [attempt, Builder.call, push_eq, documentGenerated_take, same]
          | endLine text =>
              simp only [attempt, Builder.call, endLine_eq, documentGenerated_take, same]
          | markTokens mark => exact same
          | markDocument mark => rfl

/-- Without nesting the tokens created are the root tokens. -/
theorem run_flattened {builder : Builder} (closed : builder.pending = []) (calls : List Call) :
    (builder.run (flattened calls)).pending = [] ∧
      (builder.run (flattened calls)).newest.reverse =
        builder.newest.reverse ++ builder.created (flattened calls) := by
  induction calls generalizing builder with
  | nil => exact ⟨closed, (List.append_nil _).symm⟩
  | cons call rest ih =>
      rw [flattened_cons]
      cases pushes : call.pushes with
      | true =>
          have stays : ¬ call.nests = true := by cases call <;> simp_all [Call.nests, Call.pushes]
          obtain ⟨fragment, taken, -, creates⟩ := builder.attempt_pushes pushes (flattened rest)
          obtain ⟨still, grown⟩ := take_of_closed closed fragment
          obtain ⟨done, roots⟩ := ih still
          rw [if_neg stays, run_cons, taken, creates]
          refine ⟨done, ?_⟩
          rw [roots, grown]
          simp
      | false =>
          cases call with
          | push | endLine => cases pushes
          | openComposite | closeComposite => exact ih closed
          | markTokens mark => exact @ih { builder with generated := mark } closed
          | markDocument mark => exact @ih { builder with documentGenerated := mark } closed

/-- The nesting of a run leaves no trace in the leaves of its document, which are the pushed tokens
in order, nor in the findings of a check, but for blank lines at the end that it may hide. -/
theorem nesting_transparent (calls : List Call) (document : Document)
    (finished : (start.run calls).finish = .ok document) (full : start.ClosesFull calls)
    (pushed : fragments false calls ≠ [])
    (leaves : ∀ fragment ∈ fragments false calls, fragment.kind.isLeaf = true) :
    Token.leaves document.tokens = .ok (start.created calls) ∧
    (start.created calls).map (fun token => ⟨token.kind, token.text, token.generated⟩) =
      fragments false calls ∧
    ∃ flat, (start.run (flattened calls)).finish = .ok flat ∧
      Token.leaves flat.tokens = .ok (start.created calls) ∧
      ∀ settings, ∃ nested plain, document.checkLayout settings = .ok nested ∧
        flat.checkLayout settings = .ok plain ∧
        nested.filter (·.rule ≠ .trailingBlankLines) =
          plain.filter (·.rule ≠ .trailingBlankLines) ∧
        ∀ violation ∈ nested, violation.rule = .trailingBlankLines → violation ∈ plain := by
  have laid := created_eq start_proper calls
  have drained : Token.leaves document.tokens = .ok (start.created calls) :=
    laid ▸ leaves_of_finish full finished leaves
  have given := (congrArg _ laid).trans (Fragment.map_layOut start.position (fragments false calls))
  have written : start.created calls ≠ [] := by
    intro none_made
    rw [none_made] at given
    exact pushed given.symm
  have same : start.created (flattened calls) = start.created calls := by
    rw [laid, created_eq start_proper, fragments_flattened]
  have mark := documentGenerated_flattened (rfl : start.documentGenerated = _) calls
  obtain ⟨closed, roots⟩ := run_flattened (rfl : start.pending = []) calls
  obtain ⟨-, rfl⟩ := finish_eq_ok finished
  have flat : (start.run (flattened calls)).finish =
      .ok ⟨(start.run calls).documentGenerated, start.created calls⟩ := by
    rw [finish_of_closed closed, roots, same, ← mark]
    rfl
  refine ⟨drained, given, _, flat, ?_, Document.checkLayout_flat drained written⟩
  obtain ⟨-, kinds⟩ := Token.leaves_eq_ok_iff.mp drained
  exact Token.leaves_eq_ok_iff.mpr ⟨(Token.terminalsOf_of_isLeaf kinds).symm, kinds⟩

/-- A document whose blank lines at the end are inside and behind a composite. -/
def blankEnd : List Call :=
  [.push .plain "x", .openComposite .header, .endLine "\n", .markTokens true, .push .whitespace " ",
    .closeComposite, .markTokens false, .endLine "\r\n", .endLine "\r"]

theorem nesting_transparent_blankEnd :
    ∃ flat plain, (start.run (flattened blankEnd)).finish = .ok flat ∧
      flat.checkLayout .default = .ok plain ∧
      (⟨.trailingBlankLines, 3, none⟩ : Violation) ∈ plain := by
  obtain ⟨drained, -, flat, finished, -, checked⟩ :=
    nesting_transparent blankEnd _ rfl (by decide) (by decide) (by decide)
  obtain ⟨nested, plain, first, second, -, hidden⟩ := checked .default
  refine ⟨flat, plain, finished, second, hidden _ ?_ rfl⟩
  obtain ⟨again, same, -, found⟩ := Document.checkLayout_of_leaves (by decide) rfl drained
  obtain rfl := Except.ok.inj (first.symm.trans same)
  let last : Token := ⟨.endOfLine, "\r", 3, 1, 1, 1, false, []⟩
  let earlier : Token := ⟨.endOfLine, "\r\n", 2, 2, 3, 1, false, []⟩
  have ends :
      (Layout.closing .default (start.run blankEnd).newest.reverse).getLast? = some last := by
    decide
  have member : earlier ∈ Layout.closing .default (start.run blankEnd).newest.reverse := by decide
  exact (found _).mpr ⟨.blankLines ends member (by decide), rfl⟩

end Builder

end TokenLayout
