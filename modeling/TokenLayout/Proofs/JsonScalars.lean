import Mathlib.Tactic.SplitIfs
import TokenLayout.Json.Lexeme
import TokenLayout.Json.Printer

/-! # Written scalars are scanned back

A string literal is read piece by piece, and the way each character is written is one piece of it,
which stands for that character. A number is read as far as it goes, so what follows must not go on
with it; in a layout a number is followed by a comma, by a line break or by nothing.
-/

namespace TokenLayout

/-! ## Digits -/

theorem hexValue?_digitChar {digit : Nat} (small : digit < 10) :
    hexValue? (Nat.digitChar digit) = some digit := by
  revert digit
  decide

theorem hexValue?_hexDigit {digit : Nat} (small : digit < 16) :
    hexValue? (Json.hexDigit digit) = some digit := by
  revert digit
  decide

theorem valueIn_concat (base : Nat) (digits : List Char) (c : Char) :
    valueIn base (digits ++ [c]) = valueIn base digits * base + (hexValue? c).getD 0 := by
  simp [valueIn]

theorem valueIn_toDigits (value : Nat) : valueIn 10 (Nat.toDigits 10 value) = value := by
  induction value using Nat.strongRecOn with
  | ind value ih =>
      by_cases small : value < 10
      · rw [Nat.toDigits_of_lt_base small]
        simp [valueIn, hexValue?_digitChar small]
      · have last : value % 10 < 10 := Nat.mod_lt value (by decide)
        rw [Nat.toDigits_of_base_le (by decide) (by omega), valueIn_concat,
          ih (value / 10) (by omega), hexValue?_digitChar last, Option.getD_some]
        omega

/-- Only zero is written with a zero in front. -/
theorem head?_toDigits {value : Nat} (positive : 0 < value) :
    (Nat.toDigits 10 value).head? ≠ some '0' := by
  induction value using Nat.strongRecOn with
  | ind value ih =>
      by_cases small : value < 10
      · have single : ∀ digit < 10, 0 < digit → Nat.digitChar digit ≠ '0' := by decide
        rw [Nat.toDigits_of_lt_base small]
        exact mt Option.some.inj (single value small positive)
      · have front := ih (value / 10) (by omega) (by omega)
        obtain ⟨c, rest, written⟩ := List.exists_cons_of_ne_nil
          (Nat.toDigits_ne_nil (n := value / 10) (b := 10))
        rw [Nat.toDigits_of_base_le (by decide) (by omega), written]
        rwa [written] at front

theorem isDigit_of_mem_toDigits {value : Nat} {c : Char} (member : c ∈ Nat.toDigits 10 value) :
    isDigit c = true := by
  have digit := Nat.isDigit_of_mem_toDigits (by decide) (by decide) member
  simpa [Char.isDigit, isDigit, Char.le_def] using digit

/-- A scalar that is not a number kept by its spelling. -/
def Scalar.Plain (value : Scalar) : Prop :=
  ∀ spelling, value ≠ .numeral spelling

namespace Lexeme

/-- Could the character go on with a number before it? -/
def continuesNumber (c : Char) : Bool :=
  isDigit c || c == '.' || c == 'e' || c == 'E'

/-- A text that ends a number before it. -/
def Stops (rest : List Char) : Prop :=
  ∀ c ∈ rest.head?, continuesNumber c = false

theorem stops_nil : Stops [] :=
  nofun

theorem stops_cons {c : Char} (other : continuesNumber c = false) (rest : List Char) :
    Stops (c :: rest) := by
  rintro d ⟨⟩
  exact other

/-! ## Numbers -/

theorem digits?_append {digits rest : List Char} (written : digits ≠ [])
    (all : ∀ c ∈ digits, isDigit c = true) (stops : Stops rest) :
    digits? (digits ++ rest) = some (digits, rest) := by
  have ends : rest.takeWhile isDigit = [] ∧ rest.dropWhile isDigit = rest := by
    cases rest with
    | nil => exact ⟨rfl, rfl⟩
    | cons c later =>
        have other : isDigit c = false := by
          have := stops c rfl
          simp_all [continuesNumber]
        simp [other]
  rw [digits?, List.takeWhile_append_of_pos all, List.dropWhile_append_of_pos all, ends.1, ends.2,
    List.append_nil]
  cases digits with
  | nil => exact absurd rfl written
  | cons c later => rfl

theorem fraction?_of_stops {rest : List Char} (stops : Stops rest) :
    fraction? rest = some ([], rest) := by
  cases rest with
  | nil => rfl
  | cons c later =>
      have other : c ≠ '.' := by
        rintro rfl
        cases stops '.' rfl
      simp [fraction?, other]

theorem exponent?_of_stops {rest : List Char} (stops : Stops rest) :
    exponent? rest = some ([], rest) := by
  cases rest with
  | nil => rfl
  | cons c later =>
      have other : (c == 'e' || c == 'E') = false := by
        have := stops c rfl
        simp_all [continuesNumber]
      simp [exponent?, other]

theorem integerPart?_toDigits (value : Nat) {rest : List Char} (stops : Stops rest) :
    integerPart? (Nat.toDigits 10 value ++ rest) = some (Nat.toDigits 10 value, rest) := by
  rw [integerPart?, digits?_append Nat.toDigits_ne_nil (fun _ => isDigit_of_mem_toDigits) stops]
  rcases Nat.eq_zero_or_pos value with rfl | positive
  · rfl
  · simp [head?_toDigits positive]

theorem unsignedNumber?_toDigits (value : Nat) {rest : List Char} (stops : Stops rest) :
    unsignedNumber? (Nat.toDigits 10 value ++ rest) = some (.natural value, rest) := by
  rw [unsignedNumber?, integerPart?_toDigits value stops]
  simp [fraction?_of_stops stops, exponent?_of_stops stops, valueIn_toDigits]

/-- A text that starts with a digit starts with a number. -/
theorem scanOne_digit {c : Char} (digit : isDigit c = true) (rest : List Char) :
    scanOne (c :: rest) =
      (unsignedNumber? (c :: rest)).map fun (number, left) => (.scalar number, left) := by
  rw [scanOne]
  all_goals
    intro tail same
    obtain ⟨rfl, -⟩ := List.cons.inj same
    cases digit

/-! ## String literals -/

/-- A character as the first piece of a literal. -/
def withChar (c : Char) (literal : Option (List Piece × List Char)) :
    Option (List Piece × List Char) :=
  literal.map fun (pieces, left) => (.char c :: pieces, left)

theorem stringPieces_simple {e c : Char} (escaped : simpleEscape? e = some c) (rest : List Char) :
    stringPieces ('\\' :: e :: rest) = withChar c (stringPieces rest) := by
  rw [stringPieces, escaped]
  · cases stringPieces rest <;> rfl
  · rintro a b c d rest rfl
    cases escaped

theorem stringPieces_unit {a b c d : Char} {unit : Nat} (read : codeUnit? a b c d = some unit)
    (rest : List Char) :
    stringPieces ('\\' :: 'u' :: a :: b :: c :: d :: rest) =
      (stringPieces rest).map fun (pieces, left) => (.ofUnit unit :: pieces, left) := by
  rw [stringPieces, read]
  cases stringPieces rest <;> rfl

theorem stringPieces_plain {c : Char} (unquoted : c ≠ '"') (bare : c ≠ '\\')
    (ink : ¬ c.toNat < 0x20) (rest : List Char) :
    stringPieces (c :: rest) = withChar c (stringPieces rest) := by
  rw [stringPieces, if_neg ink]
  · rfl
  · exact unquoted
  · exact fun _ _ _ _ _ slash _ => bare slash
  · exact fun _ _ slash _ => bare slash

theorem codeUnit?_control {value : Nat} (control : value < 0x20) :
    codeUnit? '0' '0' (Json.hexDigit (value / 16)) (Json.hexDigit (value % 16)) = some value := by
  have zero : hexValue? '0' = some 0 := by decide
  rw [codeUnit?, zero, hexValue?_hexDigit (by omega), hexValue?_hexDigit (by omega)]
  simp only [Option.bind_eq_bind, Option.bind_some, Option.pure_def, Option.some.injEq]
  omega

theorem ofUnit_control {c : Char} (control : c.toNat < 0x20) : Piece.ofUnit c.toNat = .char c := by
  have high : isHighSurrogate c.toNat = false := by
    simp [isHighSurrogate]
    omega
  have low : isLowSurrogate c.toNat = false := by
    simp [isLowSurrogate]
    omega
  rw [Piece.ofUnit, high, low, Char.ofNat_toNat]
  rfl

/-- A character is read from the way it is written. -/
theorem stringPieces_escape (c : Char) (rest : List Char) :
    stringPieces (Json.escape c ++ rest) = withChar c (stringPieces rest) := by
  rw [Json.escape]
  split_ifs with quoted slash back feed line return' tab control
  · subst quoted
    exact stringPieces_simple rfl rest
  · subst slash
    exact stringPieces_simple rfl rest
  · subst back
    exact stringPieces_simple rfl rest
  · subst feed
    exact stringPieces_simple rfl rest
  · subst line
    exact stringPieces_simple rfl rest
  · subst return'
    exact stringPieces_simple rfl rest
  · subst tab
    exact stringPieces_simple rfl rest
  · have read := stringPieces_unit (codeUnit?_control control) rest
    rw [ofUnit_control control] at read
    exact read
  · exact stringPieces_plain quoted slash control rest

theorem stringPieces_text (text rest : List Char) :
    stringPieces (text.flatMap Json.escape ++ '"' :: rest) = some (text.map .char, rest) := by
  induction text with
  | nil => rfl
  | cons c later ih =>
      rw [List.flatMap_cons, List.append_assoc, stringPieces_escape, ih]
      rfl

theorem join_chars (text : List Char) : Piece.join (text.map .char) = some text := by
  induction text with
  | nil => rfl
  | cons c later ih => rw [List.map_cons, Piece.join, ih, Option.map_some]

theorem stringLiteral?_text (text : String) (rest : List Char) :
    stringLiteral? (text.toList.flatMap Json.escape ++ '"' :: rest) = some (some text, rest) := by
  simp [stringLiteral?, stringPieces_text, join_chars]

theorem stringLiteral?_unpaired (rest : List Char) :
    stringLiteral? ('\\' :: 'u' :: 'd' :: '8' :: '0' :: '0' :: '"' :: rest) =
      some (none, rest) := by
  have unit : codeUnit? 'd' '8' '0' '0' = some 0xD800 := by decide
  have half : Piece.ofUnit 0xD800 = .surrogate 0xD800 := by decide
  rw [stringLiteral?, stringPieces_unit unit, half]
  rfl

theorem scanOne_quote (literal : Literal) (rest : List Char) :
    scanOne (Json.quote literal ++ rest) = some (.scalar (.text literal), rest) := by
  cases literal with
  | none =>
      have written : Json.quote none ++ rest =
          '"' :: '\\' :: 'u' :: 'd' :: '8' :: '0' :: '0' :: '"' :: rest := rfl
      rw [written, scanOne, stringLiteral?_unpaired]
      rfl
  | some text =>
      have written : Json.quote (some text) ++ rest =
          '"' :: (text.toList.flatMap Json.escape ++ '"' :: rest) :=
        List.append_assoc ('"' :: text.toList.flatMap Json.escape) ['"'] rest
      rw [written, scanOne, stringLiteral?_text]
      rfl

/-! ## Scalars -/

theorem scanOne_scalarText {value : Scalar} (plain : value.Plain) {rest : List Char}
    (stops : Stops rest) :
    scanOne (Json.scalarText value ++ rest) = some (.scalar value, rest) := by
  cases value with
  | null =>
      have written : Json.scalarText .null ++ rest = 'n' :: 'u' :: 'l' :: 'l' :: rest := rfl
      rw [written, scanOne]
  | bool truth =>
      cases truth with
      | true =>
          have written : Json.scalarText (.bool true) ++ rest =
              't' :: 'r' :: 'u' :: 'e' :: rest := rfl
          rw [written, scanOne]
      | false =>
          have written : Json.scalarText (.bool false) ++ rest =
              'f' :: 'a' :: 'l' :: 's' :: 'e' :: rest := rfl
          rw [written, scanOne]
  | natural number =>
      obtain ⟨c, later, written⟩ := List.exists_cons_of_ne_nil
        (Nat.toDigits_ne_nil (n := number) (b := 10))
      have front : c ∈ Nat.toDigits 10 number := written ▸ List.mem_cons_self
      have digit := isDigit_of_mem_toDigits front
      have read := unsignedNumber?_toDigits number stops
      rw [Json.scalarText, written] at *
      rw [List.cons_append] at read ⊢
      rw [scanOne_digit digit, read]
      rfl
  | numeral spelling => exact absurd rfl (plain spelling)
  | text literal => exact scanOne_quote literal rest

end Lexeme

end TokenLayout
