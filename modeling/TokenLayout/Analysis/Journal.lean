import TokenLayout.Analysis.Analyzer

/-! # The journal of an analysis

The notes that an analysis leaves in the log. They follow its course: the documents that are left
out, then each document that is visited, up to the one that ends the analysis if one does.
-/

namespace TokenLayout

/-- A path in quotes, on one line whatever characters it has. -/
def Path.quoted (path : Path) : String :=
  (Json.text path.text).write .compact

namespace Analyzer

/-- The notes of the checkers on a document, up to the first that fails. -/
def checkNotes (settings : Settings) (document : Document) : List Checker → List Note
  | [] => []
  | checker :: rest =>
    match checker.check document settings with
    | .error _ => []
    | .ok violations =>
      checker.note document settings violations :: checkNotes settings document rest

def fileNotes (analyzer : Analyzer) : LoadedFile → List Note
  | (path, .error cause) => [⟨.warning, "Failed to load " ++ path.text ++ ": " ++ cause.message⟩]
  | (path, .ok document) =>
    let shown := (path.relativeTo analyzer.root).text
    ⟨.debug, "Analyzing: " ++ shown⟩ ::
      if document.isEmpty then [⟨.debug, "Skipping empty document: " ++ shown⟩]
      else checkNotes analyzer.settings document analyzer.checkers

/-- The notes on files that are visited in order, after those of a report. -/
def visitNotes (analyzer : Analyzer) (report : Report) : List LoadedFile → List Note
  | [] =>
    [⟨.info, s!"Analysis complete: {report.diagnostics.length} diagnostics in " ++
      s!"{report.documentsChecked} documents"⟩]
  | file :: rest =>
    analyzer.fileNotes file ++
      match analyzer.addFile report file with
      | .ok next => visitNotes analyzer next rest
      | .error _ => []

/-- The notes of a search for documents: those that are left out, up to the first directory that
cannot be listed. -/
def searchNotes (analyzer : Analyzer) : List (Except ReadError Path) → List Note
  | [] => []
  | .error _ :: _ => []
  | .ok path :: rest =>
    if analyzer.leavesOut path then
      ⟨.debug, "Excluding: " ++ path.text⟩ :: searchNotes analyzer rest
    else searchNotes analyzer rest

/-- The notes of an analysis of the documents in a file tree. -/
def journal (analyzer : Analyzer) (tree : FileTree) : List Note :=
  ⟨.info, "Starting analysis at " ++ analyzer.root.quoted⟩ ::
    (match analyzer.candidates tree with
      | .error _ => []
      | .ok found => analyzer.searchNotes found) ++
    match analyzer.discover tree with
    | .error _ => []
    | .ok visited =>
      ⟨.info, s!"Found {visited.length} documents to analyze"⟩ ::
        analyzer.visitNotes Report.empty (visited.map (loadFrom tree))

end Analyzer

end TokenLayout
