import Std.Data.HashSet
import TokenLayout.Check.Rule
import TokenLayout.Json.Parser
import TokenLayout.Json.Printer
import TokenLayout.Json.Record

/-! # Violations

A violation says which rule is broken on which line. A document has at most one violation for each
rule and line: a long line is seen by every token that ends past the limit and is still one finding.
-/

namespace TokenLayout

/-- A finding in one document. -/
structure Violation where
  rule : Rule
  line : Nat
  /-- A number for the message, such as the maximum line length. -/
  context : Option Nat
  deriving DecidableEq

namespace Violation

def plain (rule : Rule) (line : Nat) : Violation :=
  ⟨rule, line, none⟩

/-- What makes two findings the same. -/
def key (violation : Violation) : Rule × Nat :=
  (violation.rule, violation.line)

/-- Keeps the violations whose key is not among `seen` and has not come before. -/
def distinctFrom (seen : Std.HashSet (Rule × Nat)) : List Violation → List Violation
  | [] => []
  | violation :: rest =>
    if violation.key ∈ seen then distinctFrom seen rest
    else violation :: distinctFrom (seen.insert violation.key) rest

/-- The first violation for every key, in order. -/
def distinct (violations : List Violation) : List Violation :=
  distinctFrom ∅ violations

def toJson (violation : Violation) : Json :=
  Json.record <|
    [("rule", .text violation.rule.name), ("line", .natural violation.line)] ++
    match violation.context with
    | some context => [("context", .natural context)]
    | none => []

def ofJson? (json : Json) : Option Violation := do
  let fields ← json.fields? ["rule", "line", "context"]
  let rule ← fields.required "rule" fun json => json.choice?.bind Rule.ofName?
  let line ← fields.required "line" Json.number?
  let context ← fields.optional "context" none (Json.nullable Json.number?)
  return ⟨rule, line, context⟩

def parse? (text : String) : Option Violation :=
  (Json.parse? text).bind ofJson?

def render (violation : Violation) : String :=
  violation.toJson.write .compact

end Violation

end TokenLayout
