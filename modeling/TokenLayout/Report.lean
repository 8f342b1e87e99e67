import TokenLayout.Check.Violation
import TokenLayout.Path

/-! # Reports

A diagnostic is a violation as the user sees it: with the file it was found in, the severity it is
reported with, and its message spelled out. The outcome of an analysis is a report: the diagnostics
of all documents and the number of documents that were checked.
-/

namespace TokenLayout

structure Location where
  file : Path
  line : Nat
  deriving DecidableEq

/-- A violation as it is reported. -/
structure Diagnostic where
  code : String
  rule : String
  severity : Severity
  location : Location
  message : String
  context : Option Nat
  deriving DecidableEq

namespace Diagnostic

def ofViolation (violation : Violation) (file : Path) (severity : Severity) : Diagnostic where
  code := violation.rule.code
  rule := violation.rule.name
  severity := severity
  location := ⟨file, violation.line⟩
  message := violation.rule.message violation.context
  context := violation.context

def line (diagnostic : Diagnostic) : String :=
  diagnostic.location.file.text ++ ":" ++ diagnostic.location.line.repr ++ ": " ++
    diagnostic.severity.name ++ " [" ++ diagnostic.code ++ "] " ++ diagnostic.message

/-- The order of a report: by file, then by line, then by code. -/
def compare (a b : Diagnostic) : Ordering :=
  ((a.location.file.compare b.location.file).then
    (Ord.compare a.location.line b.location.line)).then (Ord.compare a.code b.code)

/-- May `a` stand before `b` in a report? -/
def notAfter (a b : Diagnostic) : Bool :=
  (a.compare b).isLE

def toJson (diagnostic : Diagnostic) : Json :=
  Json.record <|
    [("code", .text diagnostic.code), ("rule", .text diagnostic.rule),
      ("severity", .text diagnostic.severity.name),
      ("location", Json.record
        [("file", .text diagnostic.location.file.text),
          ("line", .natural diagnostic.location.line)]),
      ("message", .text diagnostic.message)] ++
    match diagnostic.context with
    | some context => [("context", .natural context)]
    | none => []

def locationOfJson? (json : Json) : Option Location := do
  let fields ← json.fields? ["file", "line"]
  let file ← fields.required "file" Json.text?
  let line ← fields.required "line" Json.number?
  return ⟨⟨file⟩, line⟩

def ofJson? (json : Json) : Option Diagnostic := do
  let fields ← json.fields? ["code", "rule", "severity", "location", "message", "context"]
  let code ← fields.required "code" Json.text?
  let rule ← fields.required "rule" Json.text?
  let severity ← fields.required "severity" fun json => json.choice?.bind Severity.ofName?
  let location ← fields.required "location" locationOfJson?
  let message ← fields.required "message" Json.text?
  let context ← fields.optional "context" none (Json.nullable Json.number?)
  return ⟨code, rule, severity, location, message, context⟩

def parse? (text : String) : Option Diagnostic :=
  (Json.parse? text).bind ofJson?

def render (diagnostic : Diagnostic) : String :=
  diagnostic.toJson.write .compact

end Diagnostic

/-! ## Reports on several documents -/

/-- The outcome of an analysis. -/
structure Report where
  diagnostics : List Diagnostic
  documentsChecked : Nat
  deriving DecidableEq

namespace Report

def empty : Report :=
  ⟨[], 0⟩

def hasAt (report : Report) (threshold : Severity) : Bool :=
  report.diagnostics.any (·.severity.atLeast threshold)

def count (report : Report) (severity : Severity) : Nat :=
  report.diagnostics.countP (·.severity == severity)

/-- The report with its diagnostics in order; equal ones keep their order. -/
def sorted (report : Report) : Report :=
  { report with diagnostics := report.diagnostics.mergeSort Diagnostic.notAfter }

def toJson (report : Report) : Json :=
  Json.record
    [("diagnostics", .array (report.diagnostics.map Diagnostic.toJson)),
      ("documents_checked", .natural report.documentsChecked)]

def ofJson? (json : Json) : Option Report := do
  let fields ← json.fields? ["diagnostics", "documents_checked"]
  let diagnostics ← fields.required "diagnostics" fun json =>
    json.items?.bind (·.mapM Diagnostic.ofJson?)
  let documentsChecked ← fields.required "documents_checked" Json.number?
  return ⟨diagnostics, documentsChecked⟩

def parse? (text : String) : Option Report :=
  (Json.parse? text).bind ofJson?

def render (report : Report) : String :=
  report.toJson.write .pretty

end Report

end TokenLayout
