import TokenLayout.Proofs.Findings
import TokenLayout.Proofs.SourcePositions

/-! # Checking a scanned source

A builder that is driven by a scanner pushes the fragments of a source text in order. What the
check reports on the document is then a matter of the fragments alone: the nesting does not show,
and every leaf takes part in the check as long as none is passed over.
-/

namespace TokenLayout

namespace Builder

/-- The source text of a run. -/
def source (calls : List Call) : List Char :=
  Fragment.source (fragments false calls)

/-- The calls build the document from a source that was cut into tidy fragments, and the settings
pass over nothing in it. A source is held in memory, so it is shorter than a word counts. -/
structure Scans (settings : Settings) (calls : List Call) (document : Document) : Prop where
  finished : (start.run calls).finish = .ok document
  full : start.ClosesFull calls
  pushed : fragments false calls ≠ []
  tidy : ∀ fragment ∈ fragments false calls, fragment.Tidy
  seams : (fragments false calls).IsChain fun one two => Seamless one.text.toList two.text.toList
  kept : settings.excludes document.generated = false
  checked : ∀ fragment ∈ fragments false calls, settings.excludes fragment.generated = false
  short : FitsWord (source calls)

/-- The leaves that a run leaves in its document, in order. -/
def leaves (calls : List Call) : List Token :=
  Fragment.layOut (.ofText []) (fragments false calls)

namespace Scans

variable {settings : Settings} {calls : List Call} {document : Document}

theorem leaves_eq (scan : Scans settings calls document) :
    Token.leaves document.tokens = .ok (leaves calls) :=
  leaves_of_finish scan.full scan.finished fun fragment member => (scan.tidy fragment member).leaf

theorem written (scan : Scans settings calls document) : document.tokens ≠ [] := by
  intro absent
  have same := terminals_of_finish scan.full scan.finished
  rw [absent] at same
  cases pushed : fragments false calls with
  | nil => exact scan.pushed pushed
  | cons fragment rest =>
      rw [pushed] at same
      cases same

theorem joins (scan : Scans settings calls document) :
    Fragment.Joins [] (fragments false calls) :=
  Fragment.joins_of_isChain (fun fragment member => (scan.tidy fragment member).written) scan.seams
    (fun _ _ => seamless_nil _)

theorem not_skipped (scan : Scans settings calls document) {token : Token}
    (member : token ∈ leaves calls) : Layout.skips settings token = false := by
  obtain ⟨fragment, pushed, here, rfl⟩ := Fragment.exists_of_mem_layOut member
  rw [Layout.skips, Fragment.generated_token]
  exact scan.checked fragment pushed

/-- A rule that is broken on the lines of some condition is reported once on each of them, and
nowhere else. -/
theorem reports (scan : Scans settings calls document) {rule : Rule} {condition : Nat → Prop}
    [DecidablePred condition]
    (broken : ∀ number, Layout.Breach settings document.tokens (leaves calls) rule number ↔
      condition number) :
    ∃ violations, document.checkLayout settings = .ok violations ∧ ∀ number,
      violations.filter (·.key = (rule, number)) =
        if condition number then [⟨rule, number, Layout.contextOf settings rule⟩] else [] := by
  obtain ⟨violations, checked, once, found⟩ :=
    Document.checkLayout_of_leaves scan.written scan.kept scan.leaves_eq
  refine ⟨violations, checked, fun number => ?_⟩
  split
  · rename_i holds
    have member : (⟨rule, number, Layout.contextOf settings rule⟩ : Violation) ∈ violations :=
      (found _).mpr ⟨(broken number).mpr holds, rfl⟩
    exact Violation.filter_key_of_mem once member
  · rename_i fails
    rw [List.filter_eq_nil_iff]
    intro violation member same
    obtain ⟨rfl, rfl⟩ := Prod.mk.inj (of_decide_eq_true same)
    exact fails ((broken _).mp ((found violation).mp member).1)

end Scans

/-- A source with a blank at the end of a line in each of the three ways: a blank run, here in a
composite that ends before its line does, a line comment, and a line of a block comment. -/
def snippet : List Call :=
  [.push .plain "int", .openComposite .genericType, .push .whitespace "  ", .closeComposite,
    .endLine "\r\n", .push .lineComment "// note ", .endLine "\n",
    .push .blockComment "/* b \n */", .endLine "\n"]

/-- The settings for the snippet, one column short of its longest line. -/
def snippetSettings : Settings :=
  ⟨false, 7, by decide⟩

theorem snippet_scans :
    Scans snippetSettings snippet ⟨false, (start.run snippet).newest.reverse⟩ where
  finished := rfl
  full := by decide
  pushed := by decide
  tidy := by decide
  seams := by decide
  kept := rfl
  checked := by decide
  short := by decide

end Builder

end TokenLayout
