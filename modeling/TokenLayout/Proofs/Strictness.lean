import TokenLayout.Proofs.AnalysisRun

/-! # Strict and lenient analyses

A file that cannot be loaded ends a strict analysis and leaves no trace in a lenient one. In
everything else the two agree, so a strict analysis succeeds exactly where a lenient one does and
every file loads.
-/

namespace TokenLayout

namespace Analyzer

/-- The analyzer that ends at files that cannot be loaded, or does not. -/
def withStrict (analyzer : Analyzer) (strict : Bool) : Analyzer :=
  { analyzer with strict }

theorem contribution_withStrict (analyzer : Analyzer) (strict : Bool) (file : LoadedFile) :
    (analyzer.withStrict strict).contribution file = analyzer.contribution file := by
  obtain ⟨path, outcome⟩ := file
  cases outcome <;> rfl

theorem summary_withStrict (analyzer : Analyzer) (strict : Bool) (files : List LoadedFile) :
    (analyzer.withStrict strict).summary files = analyzer.summary files := by
  rw [summary, summary, funext (contribution_withStrict analyzer strict)]

/-- A lenient analysis passes over what does not load; a strict one finds the same faults as a
lenient one in what does. -/
theorem fault?_withStrict (analyzer : Analyzer) (file : LoadedFile) :
    (analyzer.withStrict true).fault? file = none ↔
      LoadedFile.loads file = true ∧ (analyzer.withStrict false).fault? file = none := by
  obtain ⟨path, outcome⟩ := file
  cases outcome with
  | error cause => simp [fault?, withStrict, LoadedFile.loads, Except.isOk, Except.toBool]
  | ok document =>
      constructor
      · intro passed
        exact ⟨rfl, passed⟩
      · intro given
        exact given.2

theorem fault?_lenient_ne_load (analyzer : Analyzer) (file : LoadedFile) (path : Path)
    (cause : DocumentError) :
    (analyzer.withStrict false).fault? file ≠ some (.load path cause) := by
  obtain ⟨path', outcome⟩ := file
  cases outcome with
  | error cause' => simp [fault?, withStrict]
  | ok document =>
      rw [fault?]
      cases (analyzer.withStrict false).checkFault? document <;> simp

/-- What does not load can be left out before a lenient analysis. -/
theorem foldlM_filter_loads (analyzer : Analyzer) (report : Report) (files : List LoadedFile) :
    (files.filter LoadedFile.loads).foldlM (analyzer.withStrict false).addFile report =
      files.foldlM (analyzer.withStrict false).addFile report := by
  induction files generalizing report with
  | nil => rfl
  | cons file rest ih =>
      obtain ⟨path, outcome⟩ := file
      cases outcome with
      | error cause => exact ih report
      | ok document =>
          have kept : ((path, .ok document) :: rest).filter LoadedFile.loads =
              (path, .ok document) :: rest.filter LoadedFile.loads := rfl
          rw [kept, List.foldlM_cons, List.foldlM_cons]
          exact congrArg _ (funext ih)

/-- A lenient analysis answers as if the files that cannot be loaded were not there; a strict one
succeeds exactly if it does and every file loads, and ends at the first file with a fault
otherwise. -/
theorem strict_lenient_agree (analyzer : Analyzer) (files : List LoadedFile) :
    let lenient := analyzer.withStrict false
    let strict := analyzer.withStrict true
    (lenient.run files = lenient.run (files.filter LoadedFile.loads) ∧
      ∀ path cause, lenient.run files ≠ .error (.load path cause)) ∧
    (∀ report, strict.run files = .ok report ↔
      (∀ file ∈ files, LoadedFile.loads file = true) ∧ lenient.run files = .ok report) ∧
    (∀ error, strict.run files = .error error ↔ files.findSome? strict.fault? = some error) ∧
    ∀ report, analyzer.run files = .ok report →
      report.documentsChecked = (files.filter LoadedFile.loads).length := by
  intro lenient strict
  refine ⟨⟨?_, fun path cause failed => ?_⟩, fun report => ?_, fun error => run_eq_error_iff,
    fun report answered => ?_⟩
  · rw [run, run, foldlM_filter_loads]
  · obtain ⟨file, -, found⟩ := List.exists_of_findSome?_eq_some (run_eq_error_iff.mp failed)
    exact fault?_lenient_ne_load analyzer file path cause found
  · rw [run_eq_ok_iff, run_eq_ok_iff, summary_withStrict, summary_withStrict]
    simp only [strict, lenient, fault?_withStrict]
    constructor
    · intro given
      obtain ⟨passed, same⟩ := given
      exact ⟨fun file member => (passed file member).1, fun file member => (passed file member).2,
        same⟩
    · intro given
      obtain ⟨loaded, passed, same⟩ := given
      exact ⟨fun file member => ⟨loaded file member, passed file member⟩, same⟩
  · obtain ⟨-, rfl⟩ := run_eq_ok_iff.mp answered
    exact List.countP_eq_length_filter

end Analyzer

end TokenLayout
