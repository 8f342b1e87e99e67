import TokenLayout.Toml.Text
import TokenLayout.Toml.Value

/-! # Numbers and date-times of TOML

Where a value of any type may stand, a table whose first key is `Toml.dateTimeKey` is a date-time
too: the text under that key must spell one, and the other entries of the table are passed over.
-/

namespace TokenLayout.Toml.Read

open Scan

/-- Takes digits of a class; single underscores may stand between digits and are dropped. -/
def digitRun (accepts : Char → Bool) : Scan (List Char) := do
  let first ← one accepts
  let rest ← many (one accepts <|> (char '_' *> one accepts))
  return first :: rest

/-- Takes a sign: is it a minus? -/
def sign : Scan Bool := do
  match ← option (one fun c => c == '+' || c == '-') with
  | some '-' => return true
  | _ => return false

/-- Takes a decimal number without a sign. A number that starts with a zero is that zero. -/
def decimalDigits : Scan (List Char) := do
  match ← peek with
  | some '0' => do
    char '0'
    return ['0']
  | _ => digitRun isDigit

/-- Is the number one of 64 bits with a sign? -/
def fitsInteger (value : Int) : Bool :=
  -signedWordBound ≤ value && value < signedWordBound

/-- Takes a whole number with a base mark, given the digits of the base. -/
def basedInteger (mark : String) (base : Nat) (accepts : Char → Bool) : Scan Int := do
  word mark
  let value : Int := valueIn base (← digitRun accepts)
  ensure (fitsInteger value)
  return value

def decimalInteger : Scan Int := do
  let negative ← sign
  let magnitude : Int := valueIn 10 (← decimalDigits)
  let value := if negative then -magnitude else magnitude
  ensure (fitsInteger value)
  return value

def integer : Scan Int :=
  basedInteger "0x" 16 (fun c => (hexValue? c).isSome) <|>
  basedInteger "0o" 8 (fun c => '0' ≤ c && c ≤ '7') <|>
  basedInteger "0b" 2 (fun c => c == '0' || c == '1') <|>
  decimalInteger

/-! ## Floating-point numbers -/

/-- Is the decimal `digits × 10 ^ exponent` too large for a number of double precision? The bound
is half a unit in the last place above the largest such number. -/
def tooLarge (digits : List Char) (exponent : Int) : Bool :=
  let significant := digits.dropWhile (· == '0')
  let magnitude : Int := significant.length + exponent
  let value := valueIn 10 significant
  let bound := Nat.pow 2 1024 - Nat.pow 2 970
  if significant.isEmpty || magnitude ≤ 308 then false
  else if 310 < magnitude then true
  else if 0 ≤ exponent then bound ≤ value * Nat.pow 10 exponent.toNat
  else bound * Nat.pow 10 (-exponent).toNat ≤ value

def exponent : Scan Int := do
  let _ ← one fun c => c == 'e' || c == 'E'
  let negative ← sign
  let magnitude : Int := valueIn 10 (← digitRun isDigit)
  return if negative then -magnitude else magnitude

def decimalFloat : Scan String := do
  let negative ← sign
  let whole ← decimalDigits
  let fraction ← option (char '.' *> digitRun isDigit)
  let power ← option exponent
  ensure (fraction.isSome || power.isSome)
  let decimals := fraction.getD []
  let scale := power.getD 0
  ensure (negative || !tooLarge (whole ++ decimals) (scale - decimals.length))
  let mark := if negative then "-" else ""
  return mark ++ String.ofList whole ++ "." ++ String.ofList decimals ++ "e" ++ toString scale

/-- Takes an infinity or the number that is none. -/
def specialFloat : Scan String := do
  let negative ← sign
  let name ← (do word "inf"; return "inf") <|> (do word "nan"; return "nan")
  return (if negative then "-" else "") ++ name

def float : Scan String :=
  decimalFloat <|> specialFloat

/-! ## Date-times -/

/-- Takes a number of exactly `count` digits that lies in a range. -/
def numberIn (count low high : Nat) : Scan Nat := do
  let value := valueIn 10 (← exactly (one isDigit) count)
  ensure (low ≤ value && value ≤ high)
  return value

def daysIn (year month : Nat) : Nat :=
  if month = 2 then
    if year % 4 = 0 ∧ (year % 100 ≠ 0 ∨ year % 400 = 0) then 29 else 28
  else if month = 4 ∨ month = 6 ∨ month = 9 ∨ month = 11 then 30
  else 31

def padded (width value : Nat) : String :=
  let digits := Nat.toDigits 10 value
  String.ofList (List.replicate (width - digits.length) '0' ++ digits)

def date : Scan String := do
  let year ← numberIn 4 0 9999
  char '-'
  let month ← numberIn 2 1 12
  char '-'
  let day ← numberIn 2 1 (daysIn year month)
  return padded 4 year ++ "-" ++ padded 2 month ++ "-" ++ padded 2 day

/-- Takes a fraction of a second. Only nine digits count, and zeros at their end do not. -/
def secondFraction : Scan String := do
  char '.'
  let digits ← run isDigit
  ensure (!digits.isEmpty)
  let significant := ((digits.take 9).reverse.dropWhile (· == '0')).reverse
  return if significant.isEmpty then "" else "." ++ String.ofList significant

def time : Scan String := do
  let hour ← numberIn 2 0 23
  char ':'
  let minute ← numberIn 2 0 59
  char ':'
  let second ← numberIn 2 0 60
  let fraction ← option secondFraction
  return padded 2 hour ++ ":" ++ padded 2 minute ++ ":" ++ padded 2 second ++ fraction.getD ""

def offset : Scan String :=
  (do let _ ← one fun c => c == 'Z' || c == 'z'
      return "Z") <|>
  (do let mark ← one fun c => c == '+' || c == '-'
      let hour ← numberIn 2 0 23
      char ':'
      let minute ← numberIn 2 0 59
      let zero := hour == 0 && minute == 0
      return (if zero || mark == '+' then "+" else "-") ++ padded 2 hour ++ ":" ++ padded 2 minute)

def timeOfDate : Scan String := do
  let _ ← one fun c => c == 'T' || c == 't' || c == ' '
  let clock ← time
  let zone ← option offset
  return "T" ++ clock ++ zone.getD ""

/-- Takes a date, a time or both. -/
def dateTime : Scan String :=
  (do let day ← date
      let clock ← option timeOfDate
      return day ++ clock.getD "") <|> time

end TokenLayout.Toml.Read

/-! ## Date-times in tables -/

namespace TokenLayout.Toml

/-- The date-time that a whole text spells, in its standard form. -/
def dateTimeOf? (text : String) : Option String :=
  ((Read.dateTime <* Scan.atEnd) text.toList).map (·.1)

mutual

/-- The value with every table that stands for a date-time replaced by it; `none` if such a table
spells no date-time. -/
def resolve? : Toml → Option Toml
  | .array items => (resolveItems? items).map .array
  | .table ((key, value) :: rest) =>
    if key = dateTimeKey then
      match value with
      | .string text => (dateTimeOf? text).map .dateTime
      | _ => none
    else do
      let first ← value.resolve?
      let others ← resolveEntries? rest
      return .table ((key, first) :: others)
  | value => some value

def resolveItems? : List Toml → Option (List Toml)
  | [] => some []
  | item :: rest => do
    let first ← item.resolve?
    let others ← resolveItems? rest
    return first :: others

def resolveEntries? : List (String × Toml) → Option (List (String × Toml))
  | [] => some []
  | (key, value) :: rest => do
    let first ← value.resolve?
    let others ← resolveEntries? rest
    return (key, first) :: others

end

end TokenLayout.Toml
