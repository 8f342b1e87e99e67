import TokenLayout.Cli.Output
import TokenLayout.Proofs.JsonRoundTrip

/-! # Written results are read back

Violations are written without blanks, reports with the layout that people read, and both come back
as they were. Any text can stand in a diagnostic; the only limit is that of the numbers, which must
have 64 bits. A context that is absent is left out of the record and read as absent.
-/

namespace TokenLayout

theorem Rule.ofName?_name (rule : Rule) : ofName? rule.name = some rule := by
  cases rule <;> decide

theorem Severity.ofName?_name (severity : Severity) : ofName? severity.name = some severity := by
  cases severity <;> decide

namespace Json

@[simp] theorem choice?_text (value : String) : (text value).choice? = some value :=
  rfl

theorem nullable_number?_natural {value : Nat} (fits : value < wordBound) :
    nullable number? (natural value) = some (some value) := by
  rw [nullable, number?_natural fits]
  · rfl
  · nofun

/-- A reader that succeeds on the forms of all entries reads their list back. -/
theorem mapM_map_of_forall {α : Type} {write : α → Json} {read : Json → Option α} {entries : List α}
    (back : ∀ entry ∈ entries, read (write entry) = some entry) :
    (entries.map write).mapM read = some entries := by
  induction entries with
  | nil => rfl
  | cons entry later ih =>
      rw [List.forall_mem_cons] at back
      rw [List.map_cons, List.mapM_cons, back.1, ih back.2]
      rfl

end Json

/-! ## Violations -/

namespace Violation

/-- A violation whose numbers have 64 bits. -/
structure Writable (violation : Violation) : Prop where
  line : violation.line < wordBound
  context : ∀ context ∈ violation.context, context < wordBound

theorem plain_toJson (violation : Violation) : violation.toJson.Plain := by
  apply Json.plain_record
  cases violation.context <;> simp

theorem ofJson?_toJson {violation : Violation} (writable : violation.Writable) :
    ofJson? violation.toJson = some violation := by
  obtain ⟨rule, line, context⟩ := violation
  have lineFits : line < wordBound := writable.line
  rw [ofJson?, toJson]
  cases context with
  | none =>
      rw [Json.fields?_record (by simp) (by simp)]
      simp [Json.Fields.required, Json.Fields.optional, List.lookup_cons, Json.number?_natural,
        Rule.ofName?_name, lineFits]
  | some context =>
      have contextFits : context < wordBound := writable.context context rfl
      rw [Json.fields?_record (by simp) (by simp)]
      simp [Json.Fields.required, Json.Fields.optional, List.lookup_cons, Json.number?_natural,
        Json.nullable_number?_natural, Rule.ofName?_name, lineFits, contextFits]

theorem parse?_render {violation : Violation} (writable : violation.Writable) :
    parse? violation.render = some violation := by
  rw [parse?, render, Json.parse?_write violation.plain_toJson, Option.bind_some,
    ofJson?_toJson writable]

end Violation

/-! ## Diagnostics -/

namespace Diagnostic

/-- A diagnostic whose numbers have 64 bits. -/
structure Writable (diagnostic : Diagnostic) : Prop where
  line : diagnostic.location.line < wordBound
  context : ∀ context ∈ diagnostic.context, context < wordBound

theorem plain_toJson (diagnostic : Diagnostic) : diagnostic.toJson.Plain := by
  have place : (Json.record [("file", .text diagnostic.location.file.text),
      ("line", .natural diagnostic.location.line)]).Plain := Json.plain_record (by simp)
  apply Json.plain_record
  cases diagnostic.context <;> simp [place]

theorem locationOfJson?_record (location : Location) (fits : location.line < wordBound) :
    locationOfJson? (Json.record [("file", .text location.file.text),
      ("line", .natural location.line)]) = some location := by
  rw [locationOfJson?, Json.fields?_record (by simp) (by simp)]
  simp [Json.Fields.required, List.lookup_cons, Json.number?_natural fits]

theorem ofJson?_toJson {diagnostic : Diagnostic} (writable : diagnostic.Writable) :
    ofJson? diagnostic.toJson = some diagnostic := by
  obtain ⟨code, rule, severity, location, message, context⟩ := diagnostic
  have place := locationOfJson?_record location writable.line
  rw [ofJson?, toJson]
  cases context with
  | none =>
      rw [Json.fields?_record (by simp) (by simp)]
      simp [Json.Fields.required, Json.Fields.optional, List.lookup_cons, Severity.ofName?_name,
        place]
  | some context =>
      have contextFits : context < wordBound := writable.context context rfl
      rw [Json.fields?_record (by simp) (by simp)]
      simp [Json.Fields.required, Json.Fields.optional, List.lookup_cons, Severity.ofName?_name,
        Json.nullable_number?_natural, place, contextFits]

end Diagnostic

/-! ## Reports -/

namespace Report

/-- A report whose numbers have 64 bits. -/
structure Writable (report : Report) : Prop where
  diagnostics : ∀ diagnostic ∈ report.diagnostics, diagnostic.Writable
  documentsChecked : report.documentsChecked < wordBound

theorem plain_toJson (report : Report) : report.toJson.Plain := by
  have listed : (Json.array (report.diagnostics.map Diagnostic.toJson)).Plain := by
    apply Json.plain_array
    intro json member
    obtain ⟨diagnostic, -, rfl⟩ := List.mem_map.mp member
    exact diagnostic.plain_toJson
  apply Json.plain_record
  simp [listed]

theorem ofJson?_toJson {report : Report} (writable : report.Writable) :
    ofJson? report.toJson = some report := by
  have listed := Json.mapM_map_of_forall fun diagnostic member =>
    Diagnostic.ofJson?_toJson (writable.diagnostics diagnostic member)
  rw [ofJson?, toJson, Json.fields?_record (by simp) (by simp)]
  simp [Json.Fields.required, List.lookup_cons, Json.items?, listed,
    Json.number?_natural writable.documentsChecked]

/-- Violations come back from their compact text, and reports from the text that is printed for
programs, which has a line break behind the layout. -/
theorem results_round_trip :
    (∀ violation : Violation, violation.Writable →
      Violation.parse? violation.render = some violation) ∧
    ∀ report : Report, report.Writable →
      parse? report.render = some report ∧
        parse? (Cli.reportText report .json) = some report := by
  refine ⟨fun violation writable => Violation.parse?_render writable, fun report writable => ?_⟩
  have read := ofJson?_toJson writable
  constructor
  · rw [parse?, render, Json.parse?_write report.plain_toJson, Option.bind_some, read]
  · rw [parse?, Cli.reportText, render, Json.parse?_write_newline report.plain_toJson,
      Option.bind_some, read]

/-- A report with a context and without, whose texts need escapes. -/
def findingsOfTwo : Report :=
  ⟨[⟨"LL001", "line-too-long", .warning, ⟨⟨"a \"b\"/\x01.tokens.json"⟩, 18446744073709551615⟩,
      "Lines\r\n\t\\ é😀", some 80⟩,
    ⟨"", "", .info, ⟨⟨""⟩, 0⟩, "", none⟩], 2⟩

theorem results_round_trip_two :
    Violation.parse? (Violation.render ⟨.lineTooLong, 18446744073709551615, some 0⟩) =
        some ⟨.lineTooLong, 18446744073709551615, some 0⟩ ∧
      parse? (Cli.reportText findingsOfTwo .json) = some findingsOfTwo := by
  have writable : findingsOfTwo.Writable := by
    refine ⟨?_, by decide⟩
    simp only [findingsOfTwo, List.forall_mem_cons]
    exact ⟨⟨by decide, by decide⟩, ⟨by decide, nofun⟩, List.forall_mem_nil _⟩
  obtain ⟨violations, reports⟩ := results_round_trip
  exact ⟨violations _ ⟨by decide, by decide⟩, (reports findingsOfTwo writable).2⟩

end Report

end TokenLayout
