import Mathlib.Data.List.Nodup
import Mathlib.Data.List.Perm.Basic
import TokenLayout.Proofs.AnalysisRun
import TokenLayout.Proofs.Findings
import TokenLayout.Proofs.ReportOrder

/-! # The order in which documents are found does not matter

A layout check finds at most one violation for a rule and a line, and a rule is known by its code.
So one copy of the checker gives at most one diagnostic for a key, over all documents whose reported
paths differ, and the sorted report is determined by the diagnostics alone. More copies of the
checker repeat every diagnostic as often as there are copies, right behind each other.
-/

namespace TokenLayout

theorem Rule.code_injective : Function.Injective Rule.code := by
  intro a b same
  cases a <;> cases b <;> first | rfl | exact absurd same (by decide)

/-- No check finds a rule broken on the same line twice. -/
theorem Document.nodup_keys_checkLayout {document : Document} {settings : Settings}
    {violations : List Violation} (checked : document.checkLayout settings = .ok violations) :
    (violations.map Violation.key).Nodup := by
  rw [checkLayout] at checked
  split at checked
  · cases checked
  · split at checked
    · cases checked
      exact List.nodup_nil
    · split at checked
      · cases checked
      · split at checked
        · cases checked
        · cases checked
          exact Violation.nodup_keys_distinct _

/-- Copies of a list one after the other hold the same as copies of each of its entries. -/
theorem flatten_replicate_perm {α : Type} (copies : Nat) (items : List α) :
    (List.replicate copies items).flatten.Perm (items.flatMap (List.replicate copies)) := by
  induction copies with
  | zero => simp
  | succ copies ih =>
      calc (List.replicate (copies + 1) items).flatten
        _ = items.flatMap ([·]) ++ (List.replicate copies items).flatten := by
          rw [List.replicate_succ, List.flatten_cons, List.flatMap_singleton']
        List.Perm _ (items.flatMap ([·]) ++ items.flatMap (List.replicate copies)) :=
          ih.append_left _
        List.Perm _ (items.flatMap fun item => [item] ++ List.replicate copies item) :=
          List.flatMap_append_perm items _ _

/-- Where no two items share a key, an item stands among items with other keys. -/
theorem split_of_nodup_keys {α β : Type} {key : α → β} {items : List α}
    (once : (items.map key).Nodup) {item : α} (member : item ∈ items) :
    ∃ front back, items = front ++ item :: back ∧
      ∀ other ∈ front ++ back, key other ≠ key item := by
  obtain ⟨front, back, rfl⟩ := List.append_of_mem member
  refine ⟨front, back, rfl, ?_⟩
  have alone : key item ∉ (front ++ back).map key := by
    have first := (List.perm_middle.map key).nodup_iff.mp once
    rw [List.map_cons] at first
    exact (List.nodup_cons.mp first).1
  intro other among same
  exact alone (List.mem_map.mpr ⟨other, among, same⟩)

namespace Diagnostic

/-- Sorted diagnostics are determined by what they are, if no two of them share a key. -/
theorem eq_of_perm {one two : List Diagnostic} (same : one.Perm two)
    (ordered : one.Pairwise fun a b => a.key ≤ b.key)
    (ordered' : two.Pairwise fun a b => a.key ≤ b.key)
    (determined : ∀ a ∈ one, ∀ b ∈ one, a.key = b.key → a = b) : one = two := by
  refine List.Perm.eq_of_pairwise ?_ ordered ordered' same
  intro a b here there before after
  exact determined a here b (same.mem_iff.mpr there) (le_antisymm before after)

theorem nodup_keys_mergeSort {diagnostics : List Diagnostic}
    (once : (diagnostics.map key).Nodup) : ((diagnostics.mergeSort notAfter).map key).Nodup :=
  ((List.mergeSort_perm diagnostics notAfter).map key).nodup_iff.mpr once

theorem sorted_copies {diagnostics : List Diagnostic}
    (ordered : diagnostics.Pairwise fun a b => a.key ≤ b.key) (copies : Nat) :
    (diagnostics.flatMap (List.replicate copies)).Pairwise fun a b => a.key ≤ b.key := by
  rw [List.pairwise_flatMap]
  constructor
  · intro diagnostic _
    exact List.pairwise_replicate.mpr (.inr (le_refl diagnostic.key))
  · refine ordered.imp ?_
    intro a b before x here y there
    rw [List.eq_of_mem_replicate here, List.eq_of_mem_replicate there]
    exact before

/-- Diagnostics that are copies of others with different keys are sorted into copies of the sorted
others. -/
theorem mergeSort_copies {diagnostics originals : List Diagnostic} {copies : Nat}
    (once : (originals.map key).Nodup)
    (copied : diagnostics.Perm (originals.flatMap (List.replicate copies))) :
    diagnostics.mergeSort notAfter =
      (originals.mergeSort notAfter).flatMap (List.replicate copies) := by
  have same : (diagnostics.mergeSort notAfter).Perm
      ((originals.mergeSort notAfter).flatMap (List.replicate copies)) :=
    calc diagnostics.mergeSort notAfter
      List.Perm _ diagnostics := List.mergeSort_perm _ _
      List.Perm _ (originals.flatMap (List.replicate copies)) := copied
      List.Perm _ ((originals.mergeSort notAfter).flatMap (List.replicate copies)) :=
        (List.mergeSort_perm originals notAfter).symm.flatMap_right _
  have original : ∀ a ∈ diagnostics.mergeSort notAfter, a ∈ originals := by
    intro a member
    obtain ⟨b, found, here⟩ := List.mem_flatMap.mp (same.mem_iff.mp member)
    obtain rfl := List.eq_of_mem_replicate here
    exact List.mem_mergeSort.mp found
  refine eq_of_perm same (sorted_mergeSort diagnostics)
    (sorted_copies (sorted_mergeSort originals) copies) ?_
  intro a here b there
  exact List.inj_on_of_nodup_map once (original a here) (original b there)

end Diagnostic

namespace Analyzer

/-- The path under which a file is reported. -/
def shown (analyzer : Analyzer) (file : LoadedFile) : Path :=
  file.1.relativeTo analyzer.root

/-- The analyzer with one copy of the layout checker. -/
def single (analyzer : Analyzer) : Analyzer :=
  { analyzer with checkers := [.layout] }

/-! ## One file -/

theorem nodup_keys_diagnose (analyzer : Analyzer) (checker : Checker) (path : Path)
    {violations : List Violation} (once : (violations.map Violation.key).Nodup) :
    ((analyzer.diagnose checker path violations).map Diagnostic.key).Nodup := by
  rw [List.Nodup, List.pairwise_map] at once
  rw [diagnose, List.map_map, List.Nodup, List.pairwise_map]
  refine (once.filter _).imp ?_
  intro a b differ same
  apply differ
  obtain ⟨-, rest⟩ := Prod.mk.inj (toLex.injective same)
  obtain ⟨line, code⟩ := Prod.mk.inj (toLex.injective rest)
  exact Prod.ext (Rule.code_injective code) line

theorem nodup_keys_single (analyzer : Analyzer) (file : LoadedFile) :
    ((analyzer.single.contribution file).map Diagnostic.key).Nodup := by
  obtain ⟨path, outcome⟩ := file
  cases outcome with
  | error cause => exact List.nodup_nil
  | ok document =>
      rw [contribution, diagnostics]
      split
      · exact List.nodup_nil
      · rw [single, List.flatMap_singleton]
        split
        · rename_i violations checked
          exact nodup_keys_diagnose _ _ _ (Document.nodup_keys_checkLayout checked)
        · exact List.nodup_nil

theorem shown_of_mem {analyzer : Analyzer} {file : LoadedFile} {diagnostic : Diagnostic}
    (member : diagnostic ∈ analyzer.contribution file) :
    LoadedFile.loads file = true ∧ diagnostic.location.file = analyzer.shown file := by
  obtain ⟨loads, violation, severity, rfl⟩ := exists_violation_of_mem_contribution member
  exact ⟨loads, rfl⟩

theorem contribution_copies {analyzer : Analyzer} {copies : Nat}
    (registered : analyzer.checkers = List.replicate copies .layout) (file : LoadedFile) :
    (analyzer.contribution file).Perm
      ((analyzer.single.contribution file).flatMap (List.replicate copies)) := by
  refine List.Perm.trans (List.Perm.of_eq ?_) (flatten_replicate_perm copies _)
  obtain ⟨path, outcome⟩ := file
  cases outcome with
  | error cause => simp [contribution]
  | ok document =>
      simp only [contribution, diagnostics, registered]
      cases document.isEmpty with
      | true => simp
      | false =>
          rw [List.flatMap_replicate]
          simp [single, diagnose]

/-! ## All files -/

section Files

variable {analyzer : Analyzer} {files : List LoadedFile}

theorem nodup_keys_files (apart : (files.map fun file => (analyzer.shown file).parts).Nodup) :
    ((files.flatMap analyzer.single.contribution).map Diagnostic.key).Nodup := by
  rw [List.map_flatMap, List.nodup_flatMap]
  refine ⟨fun file _ => nodup_keys_single analyzer file, ?_⟩
  rw [List.Nodup, List.pairwise_map] at apart
  refine apart.imp ?_
  intro one two differ key here there
  obtain ⟨a, found, rfl⟩ := List.mem_map.mp here
  obtain ⟨b, found', same⟩ := List.mem_map.mp there
  obtain ⟨parts, -⟩ := Prod.mk.inj (toLex.injective same)
  rw [(shown_of_mem found).2, (shown_of_mem found').2] at parts
  exact differ parts.symm

/-- Whatever the order of the files, several copies report what one copy does, each diagnostic as
often as there are copies. -/
theorem summary_copies {copies : Nat}
    (registered : analyzer.checkers = List.replicate copies .layout)
    (apart : (files.map fun file => (analyzer.shown file).parts).Nodup)
    {other : List LoadedFile} (same : other.Perm files) :
    (analyzer.summary other).diagnostics =
      (analyzer.single.summary files).diagnostics.flatMap (List.replicate copies) := by
  apply Diagnostic.mergeSort_copies (nodup_keys_files apart)
  rw [List.flatMap_assoc]
  exact same.flatMap fun file _ => contribution_copies registered file

theorem filter_shown_of_ne {one two : LoadedFile}
    (differ : (analyzer.shown two).parts ≠ (analyzer.shown one).parts) :
    (analyzer.contribution two).filter (·.location.file = analyzer.shown one) = [] := by
  rw [List.filter_eq_nil_iff]
  intro diagnostic found
  rw [(shown_of_mem found).2, decide_eq_true_eq]
  intro same
  exact differ (congrArg Path.parts same)

/-- The diagnostics that are reported for a path are those of the file that is shown under it. -/
theorem filter_shown (apart : (files.map fun file => (analyzer.shown file).parts).Nodup)
    {file : LoadedFile} (member : file ∈ files) :
    ((analyzer.summary files).diagnostics.filter
      (·.location.file = analyzer.shown file)).Perm (analyzer.contribution file) := by
  obtain ⟨front, back, rfl, differ⟩ := split_of_nodup_keys apart member
  have others : (front ++ back).flatMap (fun other =>
      (analyzer.contribution other).filter (·.location.file = analyzer.shown file)) = [] := by
    rw [List.flatMap_eq_nil_iff]
    intro other among
    exact filter_shown_of_ne (differ other among)
  have own : (analyzer.contribution file).filter (·.location.file = analyzer.shown file) =
      analyzer.contribution file := by
    rw [List.filter_eq_self]
    intro diagnostic found
    exact decide_eq_true (shown_of_mem found).2
  rw [List.flatMap_append, List.append_eq_nil_iff] at others
  refine ((List.mergeSort_perm _ _).filter _).trans (List.Perm.of_eq ?_)
  rw [List.filter_flatMap, List.flatMap_append, List.flatMap_cons, others.1, others.2, own,
    List.nil_append, List.append_nil]

/-- Each diagnostic of a report stands there once for every copy of the checker, in one place. -/
theorem summary_split {copies : Nat}
    (registered : analyzer.checkers = List.replicate copies .layout)
    (apart : (files.map fun file => (analyzer.shown file).parts).Nodup)
    {diagnostic : Diagnostic} (member : diagnostic ∈ (analyzer.summary files).diagnostics) :
    ∃ front back,
      (analyzer.summary files).diagnostics =
        front ++ List.replicate copies diagnostic ++ back ∧
      ∀ other ∈ front ++ back, other.key ≠ diagnostic.key := by
  have copied := summary_copies registered apart (List.Perm.refl files)
  rw [copied] at member ⊢
  obtain ⟨original, found, here⟩ := List.mem_flatMap.mp member
  obtain rfl := List.eq_of_mem_replicate here
  have once := Diagnostic.nodup_keys_mergeSort (nodup_keys_files apart)
  obtain ⟨front, back, all, differ⟩ := split_of_nodup_keys once found
  refine ⟨front.flatMap (List.replicate copies), back.flatMap (List.replicate copies), ?_, ?_⟩
  · rw [summary, Report.sorted, all, List.flatMap_append, List.flatMap_cons, List.append_assoc]
  · intro other among
    rw [← List.flatMap_append] at among
    obtain ⟨source, held, there⟩ := List.mem_flatMap.mp among
    obtain rfl := List.eq_of_mem_replicate there
    exact differ other held

/-- The report holds nothing but diagnostics of documents. -/
theorem file_of_mem_summary {diagnostic : Diagnostic}
    (member : diagnostic ∈ (analyzer.summary files).diagnostics) :
    ∃ path document, (path, .ok document) ∈ files ∧
      diagnostic.location.file = path.relativeTo analyzer.root := by
  obtain ⟨⟨path, outcome⟩, held, found⟩ := List.mem_flatMap.mp (List.mem_mergeSort.mp member)
  obtain ⟨loaded, place⟩ := shown_of_mem found
  cases outcome with
  | error cause => cases loaded
  | ok document => exact ⟨path, document, held, place⟩

theorem summary_perm {copies : Nat}
    (registered : analyzer.checkers = List.replicate copies .layout)
    (apart : (files.map fun file => (analyzer.shown file).parts).Nodup)
    {other : List LoadedFile} (same : other.Perm files) :
    analyzer.summary other = analyzer.summary files := by
  have diagnostics : (analyzer.summary other).diagnostics = (analyzer.summary files).diagnostics :=
    (summary_copies registered apart same).trans
      (summary_copies registered apart (List.Perm.refl files)).symm
  have checked : (analyzer.summary other).documentsChecked =
      (analyzer.summary files).documentsChecked :=
    same.countP_eq LoadedFile.loads
  exact congrArg₂ Report.mk diagnostics checked

end Files

theorem analyzeDocument_of_passes {analyzer : Analyzer} {path : Path} {document : Document}
    (passed : analyzer.fault? (path, .ok document) = none) :
    analyzer.analyzeDocument (path.relativeTo analyzer.root) document =
      .ok (analyzer.contribution (path, .ok document)) := by
  have checked : analyzer.checkFault? document = none := Option.map_eq_none_iff.mp passed
  rw [analyzeDocument_eq, checked, contribution]

/-- The report does not depend on the order in which files are found: it is sorted, holds for each
document what is found in it and nothing else, and has the copies of a diagnostic in one place. -/
theorem report_order_independent (analyzer : Analyzer) (copies : Nat) (files : List LoadedFile)
    (registered : analyzer.checkers = List.replicate copies .layout)
    (apart : (files.map fun file => (analyzer.shown file).parts).Nodup)
    (passes : ∀ file ∈ files, ∃ alone, analyzer.run [file] = .ok alone) :
    ∃ report, analyzer.run files = .ok report ∧
      report.diagnostics.Pairwise (fun a b => a.key ≤ b.key) ∧
      (∀ path document, (path, .ok document) ∈ files →
        ∃ found, analyzer.analyzeDocument (path.relativeTo analyzer.root) document = .ok found ∧
          (report.diagnostics.filter
            (·.location.file = path.relativeTo analyzer.root)).Perm found) ∧
      (∀ diagnostic ∈ report.diagnostics, ∃ path document, (path, .ok document) ∈ files ∧
        diagnostic.location.file = path.relativeTo analyzer.root) ∧
      (∀ diagnostic ∈ report.diagnostics, ∃ front back,
        report.diagnostics = front ++ List.replicate copies diagnostic ++ back ∧
        ∀ other ∈ front ++ back, other.key ≠ diagnostic.key) ∧
      ∀ other, other.Perm files → analyzer.run other = .ok report := by
  have passed : ∀ file ∈ files, analyzer.fault? file = none := by
    intro file member
    obtain ⟨alone, answered⟩ := passes file member
    exact (run_eq_ok_iff.mp answered).1 file List.mem_cons_self
  have reported : ∀ other : List LoadedFile, other.Perm files →
      analyzer.run other = .ok (analyzer.summary files) := by
    intro other same
    rw [run_eq_ok_iff]
    exact ⟨fun file member => passed file (same.mem_iff.mp member),
      summary_perm registered apart same⟩
  refine ⟨analyzer.summary files, reported files (List.Perm.refl files),
    Diagnostic.sorted_mergeSort _, ?_, ?_, ?_, reported⟩
  · intro path document member
    have reportedHere := filter_shown apart member
    exact ⟨_, analyzeDocument_of_passes (passed _ member), reportedHere⟩
  · intro diagnostic member
    exact file_of_mem_summary member
  · intro diagnostic member
    exact summary_split registered apart member

/-- Two documents that lack a final newline, with a file between them that cannot be loaded. -/
theorem report_order_independent_pages :
    let page : Document := ⟨false, [Token.leaf .plain "x" 1 1 1]⟩
    let analyzer : Analyzer := ⟨⟨"/r"⟩, [.layout, .layout], [], .default, .default, false⟩
    let files : List LoadedFile :=
      [(⟨"/r/b"⟩, .ok page), (⟨"/r/c"⟩, .error .notJson), (⟨"/r/a"⟩, .ok page)]
    ∃ report, analyzer.run files = .ok report ∧ analyzer.run files.reverse = .ok report ∧
      report.diagnostics ≠ [] := by
  intro page analyzer files
  have drained : Token.leaves page.tokens = .ok page.tokens :=
    Token.leaves_eq_ok_iff.mpr ⟨by decide, by decide⟩
  have checked : page.checkLayout .default = .ok [.plain .missingTrailingNewline 1] := by
    refine (Document.checkLayout_eq_ok (List.cons_ne_nil _ _) rfl drained rfl).trans ?_
    change Except.ok (Violation.distinct [.plain .missingTrailingNewline 1]) = _
    simp [Violation.distinct, Violation.distinctFrom]
  have passes : ∀ file ∈ files, ∃ alone, analyzer.run [file] = .ok alone := by
    intro file member
    refine ⟨_, run_eq_ok_iff.mpr ⟨fun other one => ?_, rfl⟩⟩
    simp only [files, List.mem_cons, List.not_mem_nil, or_false] at member
    obtain rfl := List.mem_singleton.mp one
    obtain rfl | rfl | rfl := member <;>
      simp [fault?, checkFault?, analyzer, Checker.layout, checked]
  obtain ⟨report, answered, -, own, -, -, same⟩ :=
    report_order_independent analyzer 2 files rfl (by decide +kernel) passes
  refine ⟨report, answered, same _ (List.reverse_perm files), fun none => ?_⟩
  obtain ⟨found, analysed, held⟩ := own ⟨"/r/b"⟩ page List.mem_cons_self
  rw [none] at held
  rw [List.perm_nil.mp held.symm, analyzeDocument_eq] at analysed
  have disabled : Config.default.isEnabled .missingTrailingNewline = false := by
    simpa [checkFault?, diagnostics, diagnose, analyzer, Checker.layout, checked, page,
      Document.isEmpty, Violation.plain] using analysed
  cases disabled

end Analyzer

end TokenLayout
