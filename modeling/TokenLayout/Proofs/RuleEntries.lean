import TokenLayout.Proofs.AnalysisRun
import TokenLayout.Proofs.ReportOrder

/-! # Entries for rules only shape the report

What a configuration says about single rules could as well be applied to the finished report of a
configuration that says nothing about them: the diagnostics of disabled rules are taken out, the
others get the severity that their entry gives, and nothing else changes, neither the order of the
report nor the error of an analysis that fails. An entry is found from what a diagnostic shows, the
name and the code of its rule.
-/

namespace TokenLayout

namespace Diagnostic

/-- The entry that a diagnostic falls under: the one under the name of its rule, or the one under
the code where there is none under the name. -/
def entryIn? (rules : Table RuleEntry) (diagnostic : Diagnostic) : Option RuleEntry :=
  match rules.get? diagnostic.rule with
  | some entry => some entry
  | none => rules.get? diagnostic.code

/-- Is the diagnostic one of a rule that is disabled? -/
def isDisabled (rules : Table RuleEntry) (diagnostic : Diagnostic) : Bool :=
  match diagnostic.entryIn? rules with
  | some entry => entry.enabled == some false
  | none => false

/-- The diagnostic with the severity that its entry gives, if it gives one. -/
def overridden (rules : Table RuleEntry) (diagnostic : Diagnostic) : Diagnostic :=
  match diagnostic.entryIn? rules with
  | some ⟨_, some severity⟩ => { diagnostic with severity }
  | _ => diagnostic

/-- The diagnostics of the rules that are not disabled, with the severities of their entries. -/
def underRules (rules : Table RuleEntry) (diagnostics : List Diagnostic) : List Diagnostic :=
  (diagnostics.filter (!isDisabled rules ·)).map (overridden rules)

theorem key_overridden (rules : Table RuleEntry) (diagnostic : Diagnostic) :
    (diagnostic.overridden rules).key = diagnostic.key := by
  rw [overridden]
  split <;> rfl

theorem underRules_flatMap {α : Type} (rules : Table RuleEntry) (items : List α)
    (found : α → List Diagnostic) :
    underRules rules (items.flatMap found) =
      items.flatMap fun item => underRules rules (found item) := by
  simp only [underRules, List.filter_flatMap, List.map_flatMap]

theorem underRules_mergeSort (rules : Table RuleEntry) (diagnostics : List Diagnostic) :
    underRules rules (diagnostics.mergeSort notAfter) =
      (underRules rules diagnostics).mergeSort notAfter := by
  rw [underRules, underRules, filter_mergeSort, map_mergeSort (key_overridden rules)]

end Diagnostic

/-- The report with its diagnostics as a table of rules wants them. -/
def Report.underRules (rules : Table RuleEntry) (report : Report) : Report :=
  ⟨Diagnostic.underRules rules report.diagnostics, report.documentsChecked⟩

/-- The configuration that says nothing about single rules. -/
def Config.withoutRules (config : Config) : Config :=
  { config with rules := [] }

/-! ## One violation -/

theorem Diagnostic.entryIn?_ofViolation (config : Config) (violation : Violation) (path : Path)
    (severity : Severity) :
    (ofViolation violation path severity).entryIn? config.rules =
      config.ruleEntry? violation.rule := by
  rw [entryIn?, ofViolation, Config.ruleEntry?]
  cases config.rules.get? violation.rule.name <;> rfl

theorem Diagnostic.isDisabled_ofViolation (config : Config) (violation : Violation) (path : Path)
    (severity : Severity) :
    (ofViolation violation path severity).isDisabled config.rules =
      !config.isEnabled violation.rule := by
  rw [isDisabled, entryIn?_ofViolation, Config.isEnabled]
  cases config.ruleEntry? violation.rule with
  | none => rfl
  | some entry =>
      obtain ⟨enabled, severity⟩ := entry
      cases enabled with
      | none => rfl
      | some mark => cases mark <;> rfl

theorem Diagnostic.overridden_ofViolation (config : Config) (violation : Violation) (path : Path)
    (severity : Severity) :
    (ofViolation violation path severity).overridden config.rules =
      ofViolation violation path ((config.severity? violation.rule).getD severity) := by
  rw [overridden, entryIn?_ofViolation, Config.severity?]
  cases config.ruleEntry? violation.rule with
  | none => rfl
  | some entry =>
      obtain ⟨enabled, severity⟩ := entry
      cases severity <;> rfl

namespace Analyzer

/-- The analyzer for a configuration that says nothing about single rules. -/
def withoutRules (analyzer : Analyzer) : Analyzer :=
  { analyzer with config := analyzer.config.withoutRules }

theorem diagnose_withoutRules (analyzer : Analyzer) (checker : Checker) (path : Path)
    (violations : List Violation) :
    analyzer.withoutRules.diagnose checker path violations =
      violations.map fun violation => .ofViolation violation path checker.severity := by
  have all_kept : violations.filter (fun violation =>
      analyzer.withoutRules.config.isEnabled violation.rule) = violations :=
    List.filter_eq_self.mpr fun _ _ => rfl
  rw [diagnose, all_kept]
  rfl

theorem diagnose_eq (analyzer : Analyzer) (checker : Checker) (path : Path)
    (violations : List Violation) :
    analyzer.diagnose checker path violations =
      Diagnostic.underRules analyzer.config.rules
        (analyzer.withoutRules.diagnose checker path violations) := by
  rw [diagnose_withoutRules, diagnose, Diagnostic.underRules, List.filter_map, List.map_map]
  simp only [Function.comp_def, Diagnostic.isDisabled_ofViolation, Bool.not_not,
    Diagnostic.overridden_ofViolation]

/-! ## Files -/

theorem diagnostics_eq (analyzer : Analyzer) (path : Path) (document : Document) :
    analyzer.diagnostics path document =
      Diagnostic.underRules analyzer.config.rules
        (analyzer.withoutRules.diagnostics path document) := by
  rw [diagnostics, diagnostics]
  split
  · rfl
  · rw [Diagnostic.underRules_flatMap]
    apply List.flatMap_congr
    intro checker _
    have same : analyzer.withoutRules.settings = analyzer.settings := rfl
    rw [same]
    cases checker.check document analyzer.settings with
    | error cause => rfl
    | ok violations => exact analyzer.diagnose_eq checker path violations

theorem contribution_eq (analyzer : Analyzer) (file : LoadedFile) :
    analyzer.contribution file =
      Diagnostic.underRules analyzer.config.rules (analyzer.withoutRules.contribution file) := by
  obtain ⟨path, outcome⟩ := file
  cases outcome with
  | error cause => rfl
  | ok document => exact analyzer.diagnostics_eq (path.relativeTo analyzer.root) document

theorem summary_eq (analyzer : Analyzer) (files : List LoadedFile) :
    analyzer.summary files =
      Report.underRules analyzer.config.rules (analyzer.withoutRules.summary files) := by
  rw [summary, Report.sorted, funext analyzer.contribution_eq, ← Diagnostic.underRules_flatMap,
    ← Diagnostic.underRules_mergeSort]
  rfl

theorem fault?_withoutRules (analyzer : Analyzer) (file : LoadedFile) :
    analyzer.withoutRules.fault? file = analyzer.fault? file := by
  obtain ⟨path, outcome⟩ := file
  cases outcome <;> rfl

theorem run_withoutRules (analyzer : Analyzer) (files : List LoadedFile) :
    analyzer.run files =
      (analyzer.withoutRules.run files).map (Report.underRules analyzer.config.rules) := by
  rw [run_eq, run_eq, funext analyzer.fault?_withoutRules, summary_eq]
  cases files.findSome? analyzer.fault? <;> rfl

theorem analyze_withoutRules (analyzer : Analyzer) (tree : FileTree) :
    analyzer.analyze tree =
      (analyzer.withoutRules.analyze tree).map (Report.underRules analyzer.config.rules) := by
  have same : analyzer.withoutRules.discover tree = analyzer.discover tree := rfl
  rw [analyze, analyze, same]
  cases analyzer.discover tree with
  | error error => rfl
  | ok paths => exact analyzer.run_withoutRules (paths.map (loadFrom tree))

end Analyzer

/-! ## Whole analyses -/

theorem AnalyzerPlan.config_of_build {plan : AnalyzerPlan} {current : Path} {analyzer : Analyzer}
    (made : plan.build current = .ok analyzer) : analyzer.config = plan.config := by
  rw [build] at made
  split at made
  · cases made
  · cases made
    rfl

/-- The settings of a check do not depend on what is said about single rules. -/
theorem AnalyzerPlan.build_withoutRules (plan : AnalyzerPlan) (current : Path) :
    build { plan with config := plan.config.withoutRules } current =
      (plan.build current).map Analyzer.withoutRules := by
  have same : plan.config.withoutRules.settings = plan.config.settings := rfl
  rw [build, build, same]
  cases plan.config.settings <;> rfl

/-- What a configuration says about single rules shapes the report as if it were applied to the
finished report of the configuration without it, for any files and any file tree. -/
theorem AnalyzerPlan.rules_shape_report (plan : AnalyzerPlan) (current : Path) :
    let bare : AnalyzerPlan := { plan with config := { plan.config with rules := [] } }
    (∀ files, (plan.build current).bind (·.run files) =
      ((bare.build current).bind (·.run files)).map (Report.underRules plan.config.rules)) ∧
    ∀ tree, (plan.build current).bind (·.analyze tree) =
      ((bare.build current).bind (·.analyze tree)).map
        (Report.underRules plan.config.rules) := by
  intro bare
  have built : bare.build current = (plan.build current).map Analyzer.withoutRules :=
    plan.build_withoutRules current
  rw [built]
  cases made : plan.build current with
  | error error => exact ⟨fun _ => rfl, fun _ => rfl⟩
  | ok analyzer =>
      rw [← config_of_build made]
      exact ⟨analyzer.run_withoutRules, analyzer.analyze_withoutRules⟩

end TokenLayout
