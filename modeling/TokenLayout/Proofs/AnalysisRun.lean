import TokenLayout.Analysis.Analyzer

/-! # What an analysis answers

An analysis visits files in order and ends at the first that it cannot get past. `Analyzer.fault?`
says for a single file whether and why it cannot, and `Analyzer.contribution` what the file adds to
the report otherwise. Neither looks at other files, so the whole run has a closed form
(`Analyzer.run_eq`): the first fault among the files, or the sorted contributions of all of them.
-/

namespace TokenLayout

/-- Does the file hold a document? -/
def LoadedFile.loads (file : LoadedFile) : Bool :=
  file.2.isOk

namespace Analyzer

/-- Why the checks of a document fail, if they do: for the reason of the first checker that fails.
An empty document is not checked. -/
def checkFault? (analyzer : Analyzer) (document : Document) : Option CheckError :=
  if document.isEmpty then none
  else
    analyzer.checkers.findSome? fun checker =>
      match checker.check document analyzer.settings with
      | .ok _ => none
      | .error cause => some cause

/-- The diagnostics of a document whose checks do not fail. -/
def diagnostics (analyzer : Analyzer) (path : Path) (document : Document) : List Diagnostic :=
  if document.isEmpty then []
  else
    analyzer.checkers.flatMap fun checker =>
      match checker.check document analyzer.settings with
      | .ok violations => analyzer.diagnose checker path violations
      | .error _ => []

/-- Why a file ends the analysis, if it does. -/
def fault? (analyzer : Analyzer) : LoadedFile → Option AnalysisError
  | (path, .error cause) => if analyzer.strict then some (.load path cause) else none
  | (path, .ok document) =>
    (analyzer.checkFault? document).map (.check (path.relativeTo analyzer.root))

/-- The diagnostics that a file adds to the report. -/
def contribution (analyzer : Analyzer) : LoadedFile → List Diagnostic
  | (_, .error _) => []
  | (path, .ok document) => analyzer.diagnostics (path.relativeTo analyzer.root) document

/-- What a file adds to the report are violations in a document that it holds. -/
theorem exists_violation_of_mem_contribution {analyzer : Analyzer} {file : LoadedFile}
    {diagnostic : Diagnostic} (member : diagnostic ∈ analyzer.contribution file) :
    LoadedFile.loads file = true ∧ ∃ violation severity,
      diagnostic = .ofViolation violation (file.1.relativeTo analyzer.root) severity := by
  obtain ⟨path, outcome⟩ := file
  cases outcome with
  | error cause => cases member
  | ok document =>
      rw [contribution, diagnostics] at member
      split at member
      · cases member
      · obtain ⟨checker, -, found⟩ := List.mem_flatMap.mp member
        split at found
        · obtain ⟨violation, -, rfl⟩ := List.mem_map.mp found
          exact ⟨rfl, violation, _, rfl⟩
        · cases found

/-! ## One document -/

theorem flatten_mapM_cons {α β ε : Type} (step : α → Except ε (List β)) (item : α)
    (rest : List α) :
    List.flatten <$> (item :: rest).mapM step =
      (do let first ← step item
          let later ← List.flatten <$> rest.mapM step
          return first ++ later) := by
  rw [List.mapM_cons]
  cases step item with
  | error cause => rfl
  | ok first => cases rest.mapM step <;> rfl

theorem analyzeDocument_eq (analyzer : Analyzer) (path : Path) (document : Document) :
    analyzer.analyzeDocument path document =
      match analyzer.checkFault? document with
      | some cause => .error (.check path cause)
      | none => .ok (analyzer.diagnostics path document) := by
  rw [analyzeDocument, checkFault?, diagnostics]
  cases document.isEmpty with
  | true => rfl
  | false =>
      simp only [Bool.false_eq_true, if_false]
      -- The settings and the configuration stay while the checkers are gone through.
      induction analyzer.checkers with
      | nil => rfl
      | cons checker rest ih =>
          rw [flatten_mapM_cons, ih, List.findSome?_cons, List.flatMap_cons]
          cases checker.check document analyzer.settings with
          | error cause => rfl
          | ok violations =>
              simp only
              split <;> rfl

/-! ## One file -/

theorem addFile_eq (analyzer : Analyzer) (report : Report) (file : LoadedFile) :
    analyzer.addFile report file =
      match analyzer.fault? file with
      | some error => .error error
      | none =>
        .ok ⟨report.diagnostics ++ analyzer.contribution file,
          report.documentsChecked + [file].countP LoadedFile.loads⟩ := by
  obtain ⟨path, outcome⟩ := file
  cases outcome with
  | error cause =>
      rw [addFile, fault?, contribution, List.append_nil]
      cases analyzer.strict <;> rfl
  | ok document =>
      rw [addFile, fault?, contribution, analyzeDocument_eq]
      cases analyzer.checkFault? document <;> rfl

/-! ## All files -/

theorem foldlM_addFile (analyzer : Analyzer) (report : Report) (files : List LoadedFile) :
    files.foldlM analyzer.addFile report =
      match files.findSome? analyzer.fault? with
      | some error => .error error
      | none =>
        .ok ⟨report.diagnostics ++ files.flatMap analyzer.contribution,
          report.documentsChecked + files.countP LoadedFile.loads⟩ := by
  induction files generalizing report with
  | nil =>
      rw [List.flatMap_nil, List.append_nil]
      rfl
  | cons file rest ih =>
      rw [List.foldlM_cons, addFile_eq, List.findSome?_cons, List.flatMap_cons]
      cases analyzer.fault? file with
      | some error => rfl
      | none =>
          have checked : (file :: rest).countP LoadedFile.loads =
              [file].countP LoadedFile.loads + rest.countP LoadedFile.loads := by
            rw [← List.singleton_append, List.countP_append]
          rw [checked, ← List.append_assoc, ← Nat.add_assoc]
          exact ih _

/-- The report on files that the analysis gets past. -/
def summary (analyzer : Analyzer) (files : List LoadedFile) : Report :=
  Report.sorted ⟨files.flatMap analyzer.contribution, files.countP LoadedFile.loads⟩

theorem run_eq (analyzer : Analyzer) (files : List LoadedFile) :
    analyzer.run files =
      match files.findSome? analyzer.fault? with
      | some error => .error error
      | none => .ok (analyzer.summary files) := by
  rw [run, foldlM_addFile, summary, Report.empty, List.nil_append, Nat.zero_add]
  cases files.findSome? analyzer.fault? <;> rfl

theorem run_eq_error_iff {analyzer : Analyzer} {files : List LoadedFile} {error : AnalysisError} :
    analyzer.run files = .error error ↔ files.findSome? analyzer.fault? = some error := by
  rw [run_eq]
  cases files.findSome? analyzer.fault? <;> simp

theorem run_eq_ok_iff {analyzer : Analyzer} {files : List LoadedFile} {report : Report} :
    analyzer.run files = .ok report ↔
      (∀ file ∈ files, analyzer.fault? file = none) ∧ analyzer.summary files = report := by
  rw [run_eq, ← List.findSome?_eq_none_iff]
  cases files.findSome? analyzer.fault? <;> simp

end Analyzer

end TokenLayout
