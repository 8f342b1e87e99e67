import TokenLayout.Check.Layout
import TokenLayout.Config.Basic
import TokenLayout.Document.Codec
import TokenLayout.Glob.Search
import TokenLayout.Log
import TokenLayout.Report

/-! # Analysis

An analyzer runs checkers on documents and reports what they find as the configuration says. Which
files are documents (`Analyzer.discover`) and what is found in them (`Analyzer.run`) are separate
questions: the second takes the files with the outcome of loading each.

Patterns that leave documents out are held against the path of a document as seen from the analysed
directory, so directories above it never matter. A pattern leaves a document out if it matches the
whole path, or if the path contains what is left of the pattern without its `**`; the second test
also serves patterns that are not well-formed.
-/

namespace TokenLayout

/-! ## Exclusion -/

namespace Exclusion

/-- A text without its pairs of stars, from left to right. -/
def withoutDoubleStars : List Char → List Char
  | '*' :: '*' :: rest => withoutDoubleStars rest
  | c :: rest => c :: withoutDoubleStars rest
  | [] => []

def contains (part : List Char) : List Char → Bool
  | [] => part.isEmpty
  | c :: rest => part.isPrefixOf (c :: rest) || contains part rest

/-- The path with exactly one slash in front. -/
def anchored (path : Path) : List Char :=
  '/' :: path.text.toList.dropWhile (· == '/')

/-- Does the pattern match the path? One that is not well-formed matches none. -/
def matchesPath (pattern : String) (path : Path) : Bool :=
  (Pattern.parse? pattern).any (·.matchesText path.text)

/-- Does the path contain what is left of the pattern without its double stars? Nothing left counts
as not contained. -/
def containsRest (pattern : String) (path : Path) : Bool :=
  let rest := withoutDoubleStars pattern.toList
  !rest.isEmpty && contains rest (anchored path)

/-- Does one of the patterns leave out the document at `path` of an analysis at `root`? -/
def excludes (patterns : List String) (root path : Path) : Bool :=
  let relative := path.relativeTo root
  patterns.any fun pattern => matchesPath pattern relative || containsRest pattern relative

end Exclusion

/-! ## Checkers and analyzers -/

/-- A check of documents, with what is known about it. -/
structure Checker where
  name : String
  description : String
  rules : List Rule
  /-- The severity of its findings where none is configured. -/
  severity : Severity
  check : Document → Settings → Except CheckError (List Violation)
  /-- What is noted of a check that found these violations. -/
  note : Document → Settings → List Violation → Note

namespace Checker

def layoutNote (document : Document) (settings : Settings) (found : List Violation) : Note :=
  if settings.excludes document.generated then ⟨.debug, "Skipping generated document"⟩
  else ⟨.debug, s!"Layout check found {found.length} violation(s)"⟩

def layout : Checker where
  name := "layout"
  description := "Checks line length, trailing whitespace, and blank lines at file boundaries"
  rules := Rule.all
  severity := .error
  check := Document.checkLayout
  note := layoutNote

def all : List Checker :=
  [layout]

end Checker

/-- Why an analysis fails. -/
inductive AnalysisError where
  | unlistable (cause : ReadError)
  | badPattern
  | config (cause : ConfigError)
  | load (path : Path) (cause : DocumentError)
  | check (path : Path) (cause : CheckError)
  deriving DecidableEq

def AnalysisError.message : AnalysisError → String
  | unlistable cause => "IO error: " ++ cause.message
  | badPattern => "Invalid glob pattern"
  | config cause => "Configuration error: " ++ cause.message
  | load path cause => "Failed to load " ++ path.text ++ ": " ++ cause.message
  | check path cause => "Check failed in " ++ path.text ++ ": " ++ cause.message

/-- What an analyzer is made from. -/
structure AnalyzerPlan where
  /-- The analysed directory; the configured one if not given. -/
  root : Option Path
  checkers : List Checker
  /-- Patterns of documents that are left out, before the configured ones. -/
  exclude : List String
  config : Config
  /-- Does a document that cannot be loaded end the analysis? -/
  strict : Bool

/-- An analyzer that is ready to run. -/
structure Analyzer where
  root : Path
  checkers : List Checker
  exclude : List String
  config : Config
  settings : Settings
  strict : Bool

def AnalyzerPlan.build (plan : AnalyzerPlan) (current : Path) : Except AnalysisError Analyzer :=
  match plan.config.settings with
  | .error cause => .error (.config cause)
  | .ok settings =>
    .ok {
      root := current.join (plan.root.getD plan.config.root)
      checkers := plan.checkers
      exclude := plan.exclude ++ plan.config.exclude
      config := plan.config
      settings := settings
      strict := plan.strict }

abbrev LoadedFile := Path × Except DocumentError Document

namespace Analyzer

/-- The diagnostics for the violations that a checker found in a file: those of rules that are
reported, with the configured severity or that of the checker. -/
def diagnose (analyzer : Analyzer) (checker : Checker) (path : Path)
    (violations : List Violation) : List Diagnostic :=
  (violations.filter fun violation => analyzer.config.isEnabled violation.rule).map
    fun violation =>
      .ofViolation violation path
        ((analyzer.config.severity? violation.rule).getD checker.severity)

/-- The diagnostics of one document, checker by checker. An empty document has none. -/
def analyzeDocument (analyzer : Analyzer) (path : Path) (document : Document) :
    Except AnalysisError (List Diagnostic) :=
  if document.isEmpty then .ok []
  else
    List.flatten <$> analyzer.checkers.mapM fun checker =>
      match checker.check document analyzer.settings with
      | .ok violations => .ok (analyzer.diagnose checker path violations)
      | .error cause => .error (.check path cause)

/-- Adds one file to a report. A file that cannot be loaded is passed over unless the analysis is
strict. -/
def addFile (analyzer : Analyzer) (report : Report) (file : LoadedFile) :
    Except AnalysisError Report :=
  match file with
  | (path, .error cause) => if analyzer.strict then .error (.load path cause) else .ok report
  | (path, .ok document) => do
    let found ← analyzer.analyzeDocument (path.relativeTo analyzer.root) document
    return ⟨report.diagnostics ++ found, report.documentsChecked + 1⟩

/-- The report on files, which are visited in order. -/
def run (analyzer : Analyzer) (files : List LoadedFile) : Except AnalysisError Report :=
  Report.sorted <$> files.foldlM analyzer.addFile Report.empty

def documentSuffix : String :=
  ".tokens.json"

/-- The paths of all documents under the analysed directory, in the order in which they are visited,
among the directories that cannot be listed. The directory is put into the pattern as it is
written. -/
def candidates (analyzer : Analyzer) (tree : FileTree) :
    Except AnalysisError (List (Except ReadError Path)) :=
  match tree.glob? (analyzer.root.text ++ "/**/*" ++ documentSuffix) with
  | none => .error .badPattern
  | some found => .ok found

def leavesOut (analyzer : Analyzer) (path : Path) : Bool :=
  Exclusion.excludes analyzer.exclude analyzer.root path

/-- The paths of the documents that are not left out, in the order in which they are visited. Every
directory on the way must be listed. -/
def discover (analyzer : Analyzer) (tree : FileTree) : Except AnalysisError (List Path) := do
  let found ← analyzer.candidates tree
  let paths ← found.mapM fun
    | .error cause => .error (.unlistable cause)
    | .ok path => .ok path
  return paths.filter (!analyzer.leavesOut ·)

def loadFrom (tree : FileTree) (path : Path) : LoadedFile :=
  (path,
    match tree.read .top path with
    | .error cause => .error (.unreadable path cause)
    | .ok text => Document.load text)

/-- The report on the documents in a file tree. -/
def analyze (analyzer : Analyzer) (tree : FileTree) : Except AnalysisError Report := do
  let paths ← analyzer.discover tree
  analyzer.run (paths.map (loadFrom tree))

end Analyzer

end TokenLayout
