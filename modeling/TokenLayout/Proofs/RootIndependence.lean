import Mathlib.Data.List.Perm.Subperm
import TokenLayout.Proofs.AnalysisRun
import TokenLayout.Proofs.Findings
import TokenLayout.Proofs.RelativePaths

/-! # Where the analysed directory lies does not matter

An analysis looks at a document through the path that leads there from the analysed directory. That
path is the same wherever the directory lies and however its own path is written, so neither the
choice of the documents that are left out nor the paths in a report depend on it. A search may write
the path of a document in another way than joining does; what counts are its parts.
-/

namespace TokenLayout.Analyzer

open Exclusion

theorem leavesOut_page (analyzer : Analyzer) {page : Path} (plain : page.IsPlain) :
    analyzer.leavesOut (analyzer.root.join page) =
      analyzer.exclude.any fun pattern =>
        matchesPath pattern page || containsRest pattern page := by
  rw [leavesOut, excludes, Path.relativeTo_of_parts plain rfl]

/-- In every analysis that comes to a report, the document at a place is reported under a path. -/
def ReportsUnder (analyzer : Analyzer) (place shown : Path) : Prop :=
  ∀ tree paths found document report, analyzer.discover tree = .ok paths → found ∈ paths →
    found.parts = place.parts → loadFrom tree found = (found, .ok document) →
    analyzer.analyze tree = .ok report →
    ∃ diagnostics, analyzer.analyzeDocument shown document = .ok diagnostics ∧
      diagnostics.Subperm report.diagnostics ∧
      ∀ diagnostic ∈ diagnostics, diagnostic.location.file = shown

theorem analyze_of_discover {analyzer : Analyzer} {tree : FileTree} {paths : List Path}
    (discovered : analyzer.discover tree = .ok paths) :
    analyzer.analyze tree = analyzer.run (paths.map (loadFrom tree)) := by
  rw [analyze, discovered]
  rfl

theorem contribution_subperm {analyzer : Analyzer} {files : List LoadedFile} {file : LoadedFile}
    (member : file ∈ files) :
    (analyzer.contribution file).Subperm (analyzer.summary files).diagnostics := by
  have inside : (analyzer.contribution file).Sublist (files.flatMap analyzer.contribution) :=
    List.sublist_flatten_of_mem (List.mem_map_of_mem member)
  exact inside.subperm.trans (List.mergeSort_perm _ _).symm.subperm

theorem reportsUnder_page (analyzer : Analyzer) {page : Path} (plain : page.IsPlain) :
    analyzer.ReportsUnder (analyzer.root.join page) page := by
  intro tree paths found document report discovered member same loaded analysed
  have seen : found.relativeTo analyzer.root = page := Path.relativeTo_of_parts plain same
  have among : (found, .ok document) ∈ paths.map (loadFrom tree) :=
    loaded ▸ List.mem_map_of_mem member
  rw [analyze_of_discover discovered, run_eq_ok_iff] at analysed
  obtain ⟨passes, rfl⟩ := analysed
  have passed : analyzer.checkFault? document = none := Option.map_eq_none_iff.mp (passes _ among)
  have own : analyzer.contribution (found, .ok document) = analyzer.diagnostics page document := by
    rw [contribution, seen]
  refine ⟨analyzer.diagnostics page document, ?_, own ▸ contribution_subperm among, ?_⟩
  · rw [analyzeDocument_eq, passed]
  · intro diagnostic reported
    obtain ⟨-, violation, severity, rfl⟩ := exists_violation_of_mem_contribution (own ▸ reported)
    exact seen

/-- Documents at the same path below two directories are left out alike, for that path alone, and
both are reported under it. -/
theorem root_independent (one two : Analyzer) (page : Path) (plain : page.IsPlain)
    (same : one.exclude = two.exclude) :
    one.leavesOut (one.root.join page) = two.leavesOut (two.root.join page) ∧
      ∀ analyzer ∈ [one, two],
        (analyzer.leavesOut (analyzer.root.join page) =
          analyzer.exclude.any fun pattern =>
            matchesPath pattern page || containsRest pattern page) ∧
        analyzer.ReportsUnder (analyzer.root.join page) page := by
  constructor
  · rw [leavesOut_page one plain, leavesOut_page two plain, same]
  · intro analyzer _
    exact ⟨leavesOut_page analyzer plain, reportsUnder_page analyzer plain⟩

theorem exists_ok_of_any {ε α : Type} {outcome : Except ε α} {test : α → Bool}
    (passes : outcome.toOption.any test = true) :
    ∃ value, outcome = .ok value ∧ test value = true := by
  cases outcome with
  | error cause => cases passes
  | ok value => exact ⟨value, rfl, passes⟩

/-- A document in a directory below one that has a name in a pattern. -/
def docsBelowTarget : FileTree :=
  .directory [("target", .directory [("p", .directory [("docs", .directory [
    ("x.tokens.json", .file (some ("\x7b\"tokens\":[\x7b\"kind\":\"whitespace\",\"text\":\" \"," ++
      "\"line\":1,\"start_column\":1,\"end_column\":1\x7d]\x7d")))])])])]

theorem root_independent_docsBelowTarget :
    let page : Path := ⟨"docs/x.tokens.json"⟩
    let one : Analyzer :=
      ⟨⟨"/target/./p//"⟩, Checker.all, ["**/target/**", "[open"], .default, .default, false⟩
    let two : Analyzer := { one with root := ⟨"/q"⟩ }
    page.IsPlain ∧
      one.leavesOut (one.root.join page) = two.leavesOut (two.root.join page) ∧
      ∃ report diagnostics, one.analyze docsBelowTarget = .ok report ∧ diagnostics ≠ [] ∧
        diagnostics.Subperm report.diagnostics ∧
        ∀ diagnostic ∈ diagnostics, diagnostic.location.file = page := by
  intro page one two
  have plain : page.IsPlain := by decide
  obtain ⟨alike, own⟩ := root_independent one two page plain rfl
  obtain ⟨-, reported⟩ := own one List.mem_cons_self
  -- The search writes the slashes at the end of the directory only once.
  let found : Path := ⟨"/target/./p/docs/x.tokens.json"⟩
  obtain ⟨paths, discovered, member⟩ : ∃ paths, one.discover docsBelowTarget = .ok paths ∧
      decide (found ∈ paths) = true := exists_ok_of_any (by decide +kernel)
  let document : Document := ⟨false, [.leaf .whitespace " " 1 1 1]⟩
  have loaded : (loadFrom docsBelowTarget found).2 = .ok document := by decide +kernel
  have drained : Token.leaves document.tokens = .ok document.tokens :=
    Token.leaves_eq_ok_iff.mpr ⟨rfl, by decide⟩
  have kept : Settings.default.excludes document.generated = false := rfl
  obtain ⟨violations, checked, -, broken⟩ :=
    Document.checkLayout_of_leaves (List.cons_ne_nil _ _) kept drained
  have first : document.tokens.head? = some (.leaf .whitespace " " 1 1 1) := rfl
  have leading : .plain .leadingWhitespace 1 ∈ violations :=
    (broken _).mpr ⟨.leading first rfl rfl, rfl⟩
  have own : one.analyzeDocument page document =
      .ok (one.diagnose Checker.layout page violations) := by
    have written : document.isEmpty = false := rfl
    simp [analyzeDocument, one, Checker.all, Checker.layout, written, checked]
  obtain ⟨report, analysed, -⟩ : ∃ report, one.analyze docsBelowTarget = .ok report ∧
      (fun _ => true) report = true := exists_ok_of_any (by decide +kernel)
  obtain ⟨diagnostics, answered, held, shown⟩ := reported docsBelowTarget paths found document
    report discovered (of_decide_eq_true member) (by decide +kernel) (Prod.ext rfl loaded) analysed
  have same : diagnostics = one.diagnose Checker.layout page violations :=
    Except.ok.inj (answered.symm.trans own)
  have enabled : .plain .leadingWhitespace 1 ∈
      violations.filter fun violation => one.config.isEnabled violation.rule :=
    List.mem_filter.mpr ⟨leading, by decide⟩
  refine ⟨plain, alike, report, diagnostics, analysed, ?_, held, shown⟩
  exact same ▸ List.ne_nil_of_mem (List.mem_map_of_mem enabled)

end TokenLayout.Analyzer
