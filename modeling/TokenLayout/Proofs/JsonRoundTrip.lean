import TokenLayout.Json.Parser
import TokenLayout.Json.Record
import TokenLayout.Proofs.JsonScalars

/-! # Written values are read back

Between the value and its text stand its lexemes. A style only adds blanks between them, or none, so
the text is scanned back to the lexemes (`Json.scan_chars`); and the machine that reads lexemes comes
out of those of a value with that value, whatever containers are open around it (`Json.run_lexemes`).
-/

namespace TokenLayout.Json

open Lexeme

mutual
/-- The lexemes that a value is written with. -/
def lexemes : Json → List Lexeme
  | .scalar value => [.scalar value]
  | .array [] => [.openBracket, .closeBracket]
  | .array (first :: rest) => .openBracket :: lexemes first ++ itemLexemes rest ++ [.closeBracket]
  | .object [] => [.openBrace, .closeBrace]
  | .object ((key, first) :: rest) =>
    .openBrace :: .scalar (.text key) :: .colon :: lexemes first ++ memberLexemes rest ++
      [.closeBrace]

/-- The lexemes of the items after the first. -/
def itemLexemes : List Json → List Lexeme
  | [] => []
  | item :: rest => .comma :: lexemes item ++ itemLexemes rest

/-- The lexemes of the members after the first. -/
def memberLexemes : List (Literal × Json) → List Lexeme
  | [] => []
  | (key, value) :: rest =>
    .comma :: .scalar (.text key) :: .colon :: lexemes value ++ memberLexemes rest
end

mutual
/-- No number in the value is kept by its spelling. -/
def Plain : Json → Prop
  | .scalar value => value.Plain
  | .array items => PlainItems items
  | .object members => PlainMembers members

def PlainItems : List Json → Prop
  | [] => True
  | item :: rest => item.Plain ∧ PlainItems rest

def PlainMembers : List (Literal × Json) → Prop
  | [] => True
  | (_, value) :: rest => value.Plain ∧ PlainMembers rest
end

@[simp]
theorem plain_text (value : String) : (text value).Plain :=
  nofun

@[simp]
theorem plain_natural (value : Nat) : (natural value).Plain :=
  nofun

@[simp]
theorem plain_bool (value : Bool) : (bool value).Plain :=
  nofun

theorem plain_array {items : List Json} (plain : ∀ item ∈ items, item.Plain) :
    (Json.array items).Plain := by
  rw [Plain]
  induction items with
  | nil => trivial
  | cons item later ih =>
      rw [List.forall_mem_cons] at plain
      exact ⟨plain.1, ih plain.2⟩

theorem record_eq (fields : List (String × Json)) :
    record fields = .object (fields.map fun field => (some field.1, field.2)) :=
  rfl

theorem plain_record {fields : List (String × Json)} (plain : ∀ field ∈ fields, field.2.Plain) :
    (record fields).Plain := by
  rw [record_eq, Plain]
  induction fields with
  | nil => trivial
  | cons field later ih =>
      rw [List.forall_mem_cons] at plain
      exact ⟨plain.1, ih plain.2⟩

/-! ## From text to lexemes -/

theorem scanOne_space {c : Char} (space : isSpace c = true) (rest : List Char) :
    scanOne (c :: rest) = none := by
  have other : isDigit c = false := by
    simp only [isSpace, Bool.or_eq_true, beq_iff_eq] at space
    rcases space with ((rfl | rfl) | rfl) | rfl <;> decide
  have none_read : unsignedNumber? (c :: rest) = none := by
    simp [unsignedNumber?, integerPart?, digits?, other]
  rw [scanOne, none_read]
  · rfl
  all_goals
    intro tail same
    obtain ⟨rfl, -⟩ := List.cons.inj same
    cases space

theorem scan_space {c : Char} (space : isSpace c = true) (rest : List Char) :
    scan (c :: rest) = scan rest := by
  rw [scan, if_pos space]

theorem scan_of_scanOne {text left : List Char} {lexeme : Lexeme}
    (read : scanOne text = some (lexeme, left)) : scan text = (scan left).map (lexeme :: ·) := by
  cases text with
  | nil => cases read
  | cons c rest =>
      have solid : ¬ isSpace c = true := by
        intro space
        rw [scanOne_space space] at read
        cases read
      rw [scan, if_neg solid]
      split
      · rename_i unread
        cases unread.symm.trans read
      · rename_i found
        cases found.symm.trans read
        rfl

@[simp]
theorem scan_openBrace (rest : List Char) :
    scan ('{' :: rest) = (scan rest).map (.openBrace :: ·) :=
  scan_of_scanOne (by rw [scanOne])

@[simp]
theorem scan_closeBrace (rest : List Char) :
    scan ('}' :: rest) = (scan rest).map (.closeBrace :: ·) :=
  scan_of_scanOne (by rw [scanOne])

@[simp]
theorem scan_openBracket (rest : List Char) :
    scan ('[' :: rest) = (scan rest).map (.openBracket :: ·) :=
  scan_of_scanOne (by rw [scanOne])

@[simp]
theorem scan_closeBracket (rest : List Char) :
    scan (']' :: rest) = (scan rest).map (.closeBracket :: ·) :=
  scan_of_scanOne (by rw [scanOne])

@[simp]
theorem scan_colon (rest : List Char) :
    scan (':' :: rest) = (scan rest).map (.colon :: ·) :=
  scan_of_scanOne (by rw [scanOne])

@[simp]
theorem scan_comma (rest : List Char) :
    scan (',' :: rest) = (scan rest).map (.comma :: ·) :=
  scan_of_scanOne (by rw [scanOne])

theorem scan_gap (style : Style) (level : Nat) (rest : List Char) :
    scan (style.gap level ++ rest) = scan rest := by
  cases style with
  | compact => rfl
  | pretty =>
      rw [Style.gap, List.cons_append, scan_space rfl]
      induction 2 * level with
      | zero => rfl
      | succ count ih => rw [List.replicate_succ, List.cons_append, scan_space rfl, ih]

theorem scan_styleColon (style : Style) (rest : List Char) :
    scan (style.colon ++ rest) = (scan rest).map (.colon :: ·) := by
  cases style with
  | compact => exact scan_colon rest
  | pretty =>
      rw [← scan_space (c := ' ') rfl rest]
      exact scan_colon (' ' :: rest)

theorem scan_quote (literal : Literal) (rest : List Char) :
    scan (quote literal ++ rest) = (scan rest).map (.scalar (.text literal) :: ·) :=
  scan_of_scanOne (scanOne_quote literal rest)

section Styles

variable (style : Style)

theorem stops_gap (level : Nat) {rest : List Char} (stops : Stops rest) :
    Stops (style.gap level ++ rest) := by
  cases style with
  | compact => exact stops
  | pretty => exact stops_cons (by decide) _

theorem stops_itemChars (level : Nat) (items : List Json) {rest : List Char}
    (stops : Stops rest) : Stops (itemChars style level items ++ rest) := by
  cases items with
  | nil => exact stops
  | cons item later =>
      rw [itemChars]
      exact stops_cons (by decide) _

theorem stops_memberChars (level : Nat) (members : List (Literal × Json)) {rest : List Char}
    (stops : Stops rest) : Stops (memberChars style level members ++ rest) := by
  cases members with
  | nil => exact stops
  | cons member later =>
      rw [memberChars]
      exact stops_cons (by decide) _

mutual
theorem scan_chars (level : Nat) (value : Json) (plain : value.Plain) {rest : List Char}
    (stops : Stops rest) :
    scan (value.chars style level ++ rest) = (scan rest).map (lexemes value ++ ·) := by
  match value with
  | .scalar value => exact scan_of_scanOne (scanOne_scalarText plain stops)
  | .array [] => simp [chars, lexemes, Function.comp_def]
  | .array (first :: later) =>
      have ends : Stops (style.gap level ++ ']' :: rest) :=
        stops_gap style level (stops_cons (by decide) rest)
      simp only [chars, List.cons_append, List.append_assoc, List.nil_append, scan_openBracket,
        scan_gap]
      rw [scan_chars (level + 1) first plain.1 (stops_itemChars style (level + 1) later ends),
        scan_itemChars (level + 1) later plain.2 ends, scan_gap, scan_closeBracket]
      simp [lexemes, Function.comp_def]
  | .object [] => simp [chars, lexemes, Function.comp_def]
  | .object ((key, first) :: later) =>
      have ends : Stops (style.gap level ++ '}' :: rest) :=
        stops_gap style level (stops_cons (by decide) rest)
      simp only [chars, List.cons_append, List.append_assoc, List.nil_append, scan_openBrace,
        scan_gap, scan_quote, scan_styleColon]
      rw [scan_chars (level + 1) first plain.1 (stops_memberChars style (level + 1) later ends),
        scan_memberChars (level + 1) later plain.2 ends, scan_gap, scan_closeBrace]
      simp [lexemes, Function.comp_def]
termination_by sizeOf value

theorem scan_itemChars (level : Nat) (items : List Json) (plain : PlainItems items)
    {rest : List Char} (stops : Stops rest) :
    scan (itemChars style level items ++ rest) = (scan rest).map (itemLexemes items ++ ·) := by
  match items with
  | [] => simp [itemChars, itemLexemes]
  | item :: later =>
      simp only [itemChars, List.cons_append, List.append_assoc, scan_comma, scan_gap]
      rw [scan_chars level item plain.1 (stops_itemChars style level later stops),
        scan_itemChars level later plain.2 stops]
      simp [itemLexemes, Function.comp_def]
termination_by sizeOf items

theorem scan_memberChars (level : Nat) (members : List (Literal × Json))
    (plain : PlainMembers members) {rest : List Char} (stops : Stops rest) :
    scan (memberChars style level members ++ rest) =
      (scan rest).map (memberLexemes members ++ ·) := by
  match members with
  | [] => simp [memberChars, memberLexemes]
  | (key, value) :: later =>
      simp only [memberChars, List.cons_append, List.append_assoc, scan_comma, scan_gap, scan_quote,
        scan_styleColon]
      rw [scan_chars level value plain.1 (stops_memberChars style level later stops),
        scan_memberChars level later plain.2 stops]
      simp [memberLexemes, Function.comp_def]
termination_by sizeOf members
end

end Styles

/-! ## From lexemes to the value -/

namespace Machine

theorem run_cons {machine next : Machine} {lexeme : Lexeme} (step : machine.step lexeme = some next)
    (later : List Lexeme) : machine.run (lexeme :: later) = next.run later := by
  rw [run, List.foldlM_cons, step]
  rfl

theorem run_append {machine next : Machine} {front : List Lexeme}
    (reached : machine.run front = some next) (back : List Lexeme) :
    machine.run (front ++ back) = next.run back := by
  rw [run, List.foldlM_append, ← run, reached]
  rfl

/-- The first item of an array is read like any other. -/
theorem run_firstItem (stack : List Frame) (value : Json) :
    run ⟨stack, .firstItem⟩ (lexemes value) = run ⟨.array [] :: stack, .value⟩ (lexemes value) := by
  match value with
  | .scalar _ | .array [] | .array (_ :: _) | .object [] | .object ((_, _) :: _) =>
      rw [lexemes]
      rfl

mutual
/-- Whatever is open around it, a value is read from its lexemes. -/
theorem run_lexemes (stack : List Frame) (value : Json) :
    run ⟨stack, .value⟩ (lexemes value) = some ⟨stack, .after value⟩ := by
  match value with
  | .scalar _ | .array [] | .object [] =>
      rw [lexemes]
      rfl
  | .array (first :: later) =>
      have item := (run_firstItem stack first).trans (run_lexemes (.array [] :: stack) first)
      rw [lexemes, List.append_assoc, List.cons_append, run_cons rfl, run_append item]
      exact run_itemLexemes stack [] first later
  | .object ((key, first) :: later) =>
      have member := run_lexemes (.object [] key :: stack) first
      rw [lexemes, List.append_assoc, List.cons_append, List.cons_append, List.cons_append,
        run_cons rfl, run_cons rfl, run_cons rfl, run_append member]
      exact run_memberLexemes stack [] key first later
termination_by sizeOf value

theorem run_itemLexemes (stack : List Frame) (done : List Json) (value : Json) (items : List Json) :
    run ⟨.array done :: stack, .after value⟩ (itemLexemes items ++ [.closeBracket]) =
      some ⟨stack, .after (.array (done.reverse ++ value :: items))⟩ := by
  match items with
  | [] =>
      rw [itemLexemes, List.nil_append, run_cons rfl, List.reverse_cons]
      rfl
  | item :: later =>
      have next := run_lexemes (.array (value :: done) :: stack) item
      rw [itemLexemes, List.append_assoc, List.cons_append, run_cons rfl, run_append next,
        run_itemLexemes stack (value :: done) item later, List.reverse_cons, List.append_assoc]
      rfl
termination_by sizeOf items

theorem run_memberLexemes (stack : List Frame) (done : List (Literal × Json)) (key : Literal)
    (value : Json) (members : List (Literal × Json)) :
    run ⟨.object done key :: stack, .after value⟩ (memberLexemes members ++ [.closeBrace]) =
      some ⟨stack, .after (.object (done.reverse ++ (key, value) :: members))⟩ := by
  match members with
  | [] =>
      rw [memberLexemes, List.nil_append, run_cons rfl, List.reverse_cons]
      rfl
  | (next, item) :: later =>
      have member := run_lexemes (.object ((key, value) :: done) next :: stack) item
      rw [memberLexemes, List.append_assoc, List.cons_append, List.cons_append, List.cons_append,
        run_cons rfl, run_cons rfl, run_cons rfl, run_append member,
        run_memberLexemes stack ((key, value) :: done) next item later, List.reverse_cons,
        List.append_assoc]
      rfl
termination_by sizeOf members
end

end Machine

theorem ofLexemes?_lexemes (value : Json) : ofLexemes? (lexemes value) = some value := by
  rw [ofLexemes?, Machine.start, Machine.run_lexemes]
  rfl

theorem parse?_ofList {text : List Char} {value : Json}
    (scanned : scan text = some (lexemes value)) : parse? (String.ofList text) = some value := by
  rw [parse?, String.toList_ofList, scanned, Option.bind_some, ofLexemes?_lexemes]

theorem parse?_write {value : Json} (plain : value.Plain) (style : Style) :
    parse? (value.write style) = some value := by
  apply parse?_ofList
  simpa [scan] using scan_chars style 0 value plain stops_nil

/-- A line break behind the text does not change what it spells. -/
theorem parse?_write_newline {value : Json} (plain : value.Plain) (style : Style) :
    parse? (value.write style ++ "\n") = some value := by
  have written : value.write style ++ "\n" = String.ofList (value.chars style 0 ++ ['\n']) :=
    String.ofList_append.symm
  have ends : Stops ['\n'] := stops_cons (by decide) []
  rw [written]
  apply parse?_ofList
  rw [scan_chars style 0 value plain ends, scan_space rfl]
  simp [scan]

/-! ## Records -/

theorem knownMembers?_record {names : List String} {fields : Fields}
    (known : ∀ field ∈ fields, field.1 ∈ names) :
    knownMembers? names (fields.map fun field => (some field.1, field.2)) = some fields := by
  induction fields with
  | nil => rfl
  | cons field later ih =>
      rw [List.forall_mem_cons] at known
      rw [List.map_cons, knownMembers?, ih known.2]
      simp [known.1]

/-- A written record is read with the fields that it was written with. -/
theorem fields?_record {names : List String} {fields : Fields}
    (known : ∀ field ∈ fields, field.1 ∈ names) (distinct : (fields.map (·.1)).Nodup) :
    (record fields).fields? names = some fields := by
  rw [record_eq, fields?, knownMembers?_record known]
  exact if_pos distinct

@[simp]
theorem text?_text (value : String) : (text value).text? = some value :=
  rfl

@[simp]
theorem bool?_bool (value : Bool) : (bool value).bool? = some value :=
  rfl

theorem number?_natural {value : Nat} (fits : value < wordBound) :
    (natural value).number? = some value :=
  if_pos fits

end TokenLayout.Json
