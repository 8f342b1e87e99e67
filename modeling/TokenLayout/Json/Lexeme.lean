import TokenLayout.Json.Value
import TokenLayout.Number

/-! # JSON lexemes

The lexical level of JSON: brackets, separators and scalars, with blanks between them dropped.
`Lexeme.scan` is total because every lexeme takes at least one character of the text
(`Lexeme.length_scanOne_lt`).
-/

namespace TokenLayout

inductive Lexeme where
  | openBrace
  | closeBrace
  | openBracket
  | closeBracket
  | colon
  | comma
  | scalar (value : Scalar)
  deriving DecidableEq

namespace Lexeme

/-- The blanks that JSON allows between lexemes. -/
def isSpace (c : Char) : Bool :=
  c == ' ' || c == '\n' || c == '\t' || c == '\r'

/-! ## String literals -/

/-- The code unit written by four hexadecimal digits. -/
def codeUnit? (a b c d : Char) : Option Nat := do
  return (((← hexValue? a) * 16 + (← hexValue? b)) * 16 + (← hexValue? c)) * 16 + (← hexValue? d)

/-- Is the code unit the first half of a surrogate pair? -/
def isHighSurrogate (unit : Nat) : Bool :=
  0xD800 ≤ unit && unit ≤ 0xDBFF

/-- Is the code unit the second half of a surrogate pair? -/
def isLowSurrogate (unit : Nat) : Bool :=
  0xDC00 ≤ unit && unit ≤ 0xDFFF

def surrogatePair (high low : Nat) : Char :=
  Char.ofNat ((high - 0xD800) * 0x400 + (low - 0xDC00) + 0x10000)

/-- The character written by a backslash and one more character. -/
def simpleEscape? : Char → Option Char
  | '"' => some '"'
  | '\\' => some '\\'
  | '/' => some '/'
  | 'b' => some '\x08'
  | 'f' => some '\x0c'
  | 'n' => some '\n'
  | 'r' => some '\r'
  | 't' => some '\t'
  | _ => none

/-- One unit of a string literal. -/
inductive Piece where
  | char (c : Char)
  /-- The escape of one half of a surrogate pair. -/
  | surrogate (unit : Nat)
  deriving DecidableEq

def Piece.ofUnit (unit : Nat) : Piece :=
  if isHighSurrogate unit || isLowSurrogate unit then .surrogate unit else .char (Char.ofNat unit)

/-- The text that pieces name: surrogates must come in pairs, the high half first. -/
def Piece.join : List Piece → Option (List Char)
  | [] => some []
  | .char c :: rest => (join rest).map (c :: ·)
  | .surrogate high :: .surrogate low :: rest =>
    if isHighSurrogate high && isLowSurrogate low then
      (join rest).map (surrogatePair high low :: ·)
    else none
  | .surrogate _ :: _ => none

/-- Reads a string literal after its opening quote: its pieces, and what follows the closing
quote. Control characters must be escaped. -/
def stringPieces : List Char → Option (List Piece × List Char)
  | [] => none
  | '"' :: rest => some ([], rest)
  | '\\' :: 'u' :: a :: b :: c :: d :: rest =>
    match codeUnit? a b c d, stringPieces rest with
    | some unit, some (pieces, left) => some (.ofUnit unit :: pieces, left)
    | _, _ => none
  | '\\' :: e :: rest =>
    match simpleEscape? e, stringPieces rest with
    | some c, some (pieces, left) => some (.char c :: pieces, left)
    | _, _ => none
  | c :: rest =>
    if c.toNat < 0x20 then none
    else (stringPieces rest).map fun (pieces, left) => (.char c :: pieces, left)

/-- Reads a string literal after its opening quote: the text it names, and what follows the
closing quote. -/
def stringLiteral? (text : List Char) : Option (Literal × List Char) :=
  (stringPieces text).map fun (pieces, rest) => ((Piece.join pieces).map String.ofList, rest)

/-! ## Numbers -/

/-- Splits a text after its leading digits; fails if there are none. -/
def digits? (text : List Char) : Option (List Char × List Char) :=
  match text.takeWhile isDigit with
  | [] => none
  | digits => some (digits, text.dropWhile isDigit)

/-- The digits of an integer part: a zero stands alone. -/
def integerPart? (text : List Char) : Option (List Char × List Char) := do
  let (digits, rest) ← digits? text
  if digits.head? == some '0' && digits.length != 1 then none else some (digits, rest)

def fraction? : List Char → Option (List Char × List Char)
  | '.' :: rest => do
    let (digits, rest) ← digits? rest
    return ('.' :: digits, rest)
  | rest => some ([], rest)

def exponentSign : List Char → List Char × List Char
  | '+' :: rest => (['+'], rest)
  | '-' :: rest => (['-'], rest)
  | rest => ([], rest)

def exponent? : List Char → Option (List Char × List Char)
  | c :: rest =>
    if c == 'e' || c == 'E' then do
      let (sign, rest) := exponentSign rest
      let (digits, rest) ← digits? rest
      return (c :: sign ++ digits, rest)
    else some ([], c :: rest)
  | [] => some ([], [])

/-- Reads a number without its sign. -/
def unsignedNumber? (text : List Char) : Option (Scalar × List Char) := do
  let (whole, rest) ← integerPart? text
  let (fraction, rest) ← fraction? rest
  let (exponent, rest) ← exponent? rest
  if fraction.isEmpty && exponent.isEmpty then return (.natural (valueIn 10 whole), rest)
  else return (.numeral (String.ofList (whole ++ fraction ++ exponent)), rest)

/-- The scalar for a number with a minus sign in front. -/
def negated : Scalar → Scalar
  | .natural value => .numeral ("-" ++ value.repr)
  | .numeral spelling => .numeral ("-" ++ spelling)
  | other => other

/-! ## Lexemes -/

/-- Reads one lexeme at the start of a text. -/
def scanOne : List Char → Option (Lexeme × List Char)
  | '{' :: rest => some (.openBrace, rest)
  | '}' :: rest => some (.closeBrace, rest)
  | '[' :: rest => some (.openBracket, rest)
  | ']' :: rest => some (.closeBracket, rest)
  | ':' :: rest => some (.colon, rest)
  | ',' :: rest => some (.comma, rest)
  | '"' :: rest =>
    (stringLiteral? rest).map fun (literal, rest) => (.scalar (.text literal), rest)
  | 'n' :: 'u' :: 'l' :: 'l' :: rest => some (.scalar .null, rest)
  | 't' :: 'r' :: 'u' :: 'e' :: rest => some (.scalar (.bool true), rest)
  | 'f' :: 'a' :: 'l' :: 's' :: 'e' :: rest => some (.scalar (.bool false), rest)
  | '-' :: rest => (unsignedNumber? rest).map fun (number, rest) => (.scalar (negated number), rest)
  | text => (unsignedNumber? text).map fun (number, rest) => (.scalar number, rest)

/-! ## What a reader leaves is shorter -/

private theorem length_stringPieces_lt {text rest : List Char} {pieces : List Piece}
    (h : stringPieces text = some (pieces, rest)) : rest.length < text.length := by
  fun_induction stringPieces text generalizing pieces rest with
  | case1 => simp at h
  | case2 tail =>
    simp only [Option.some.injEq, Prod.mk.injEq] at h
    simp [← h.2]
  | case3 a b c d tail unit read left hread _ ih =>
    simp only [Option.some.injEq, Prod.mk.injEq] at h
    have := ih hread
    simp only [← h.2, List.length_cons]
    omega
  | case4 => simp at h
  | case5 e tail _ c read left hread _ ih =>
    simp only [Option.some.injEq, Prod.mk.injEq] at h
    have := ih hread
    simp only [← h.2, List.length_cons]
    omega
  | case6 => simp at h
  | case7 => simp at h
  | case8 c tail _ _ _ _ ih =>
    simp only [Option.map_eq_some_iff, Prod.mk.injEq] at h
    obtain ⟨⟨read, left⟩, hread, -, rfl⟩ := h
    have := ih hread
    simp only [List.length_cons]
    omega

private theorem length_stringLiteral_lt {text rest : List Char} {literal : Literal}
    (h : stringLiteral? text = some (literal, rest)) : rest.length < text.length := by
  simp only [stringLiteral?, Option.map_eq_some_iff, Prod.mk.injEq] at h
  obtain ⟨⟨pieces, left⟩, hread, -, rfl⟩ := h
  exact length_stringPieces_lt hread

private theorem length_digits_lt {text digits rest : List Char}
    (h : digits? text = some (digits, rest)) : rest.length < text.length := by
  have hsum := congrArg List.length (List.takeWhile_append_dropWhile (p := isDigit) (l := text))
  simp only [digits?] at h
  split at h
  · simp at h
  · rename_i hne
    simp only [Option.some.injEq, Prod.mk.injEq] at h
    have hpos := List.length_pos_iff.mpr hne
    simp only [List.length_append] at hsum
    rw [← h.2]
    omega

private theorem length_integerPart_lt {text digits rest : List Char}
    (h : integerPart? text = some (digits, rest)) : rest.length < text.length := by
  simp only [integerPart?, Option.bind_eq_bind, Option.bind_eq_some_iff] at h
  obtain ⟨⟨read, left⟩, hread, hrest⟩ := h
  have := length_digits_lt hread
  simp only at hrest
  split at hrest
  · simp at hrest
  · simp only [Option.some.injEq, Prod.mk.injEq] at hrest
    rw [← hrest.2]
    exact this

private theorem length_fraction_le {text digits rest : List Char}
    (h : fraction? text = some (digits, rest)) : rest.length ≤ text.length := by
  fun_cases fraction? text
  · rename_i tail
    simp only [fraction?, Option.bind_eq_bind, Option.bind_eq_some_iff] at h
    obtain ⟨⟨read, left⟩, hread, hrest⟩ := h
    have := length_digits_lt hread
    simp_all
    omega
  · simp_all [fraction?]

private theorem length_exponentSign_le (text : List Char) :
    (exponentSign text).2.length ≤ text.length := by
  fun_cases exponentSign text <;> simp

private theorem length_exponent_le {text digits rest : List Char}
    (h : exponent? text = some (digits, rest)) : rest.length ≤ text.length := by
  cases text with
  | nil => simp_all [exponent?]
  | cons c tail =>
    simp only [exponent?] at h
    split at h
    · simp only [Option.bind_eq_bind, Option.bind_eq_some_iff] at h
      obtain ⟨⟨read, left⟩, hread, hrest⟩ := h
      have h1 := length_digits_lt hread
      have h2 := length_exponentSign_le tail
      simp_all
      omega
    · simp_all

private theorem length_unsignedNumber_lt {text rest : List Char} {number : Scalar}
    (h : unsignedNumber? text = some (number, rest)) : rest.length < text.length := by
  simp only [unsignedNumber?, Option.bind_eq_bind, Option.bind_eq_some_iff] at h
  obtain ⟨⟨whole, r1⟩, h1, ⟨fraction, r2⟩, h2, ⟨exponent, r3⟩, h3, h4⟩ := h
  have l1 := length_integerPart_lt h1
  have l2 := length_fraction_le h2
  have l3 := length_exponent_le h3
  simp only at l2 l3 h4
  split at h4 <;> simp only [pure, Option.some.injEq, Prod.mk.injEq] at h4 <;> rw [← h4.2] <;> omega

/-- A lexeme takes at least one character. -/
theorem length_scanOne_lt {text rest : List Char} {lexeme : Lexeme}
    (h : scanOne text = some (lexeme, rest)) : rest.length < text.length := by
  unfold scanOne at h
  split at h
  case h_7 =>
    simp only [Option.map_eq_some_iff] at h
    obtain ⟨⟨read, left⟩, hread, heq⟩ := h
    have := length_stringLiteral_lt hread
    simp_all
    omega
  case h_11 =>
    simp only [Option.map_eq_some_iff] at h
    obtain ⟨⟨read, left⟩, hread, heq⟩ := h
    have := length_unsignedNumber_lt hread
    simp_all
    omega
  case h_12 =>
    simp only [Option.map_eq_some_iff] at h
    obtain ⟨⟨read, left⟩, hread, heq⟩ := h
    have := length_unsignedNumber_lt hread
    simp_all
  all_goals simp_all
  all_goals omega

/-- The lexemes of a text, or `none` if a part of the text is none. -/
def scan (text : List Char) : Option (List Lexeme) :=
  match text with
  | [] => some []
  | c :: rest =>
    if isSpace c then scan rest
    else
      match _h : scanOne (c :: rest) with
      | none => none
      | some (lexeme, left) => (scan left).map (lexeme :: ·)
termination_by text.length
decreasing_by
  · simp
  · exact length_scanOne_lt _h

end Lexeme

end TokenLayout
