/-! # Numbers

Digits and the numbers they write, for every notation that this library reads, and the arithmetic of
machine words.

Lines, columns and spans are words of 64 bits. Where a check adds to one that came with a document,
the sum is taken modulo the size of a word: a document may put a token on the last line that a word
can count, and what follows is then counted from zero.
-/

namespace TokenLayout

/-! ## Digits -/

def isDigit (c : Char) : Bool :=
  '0' ≤ c && c ≤ '9'

/-- The value of a hexadecimal digit of either case. -/
def hexValue? (c : Char) : Option Nat :=
  if '0' ≤ c ∧ c ≤ '9' then some (c.toNat - '0'.toNat)
  else if 'a' ≤ c ∧ c ≤ 'f' then some (c.toNat - 'a'.toNat + 10)
  else if 'A' ≤ c ∧ c ≤ 'F' then some (c.toNat - 'A'.toNat + 10)
  else none

/-- The number that digits write in a base of at most sixteen. -/
def valueIn (base : Nat) (digits : List Char) : Nat :=
  digits.foldl (fun value c => value * base + (hexValue? c).getD 0) 0

/-! ## Machine words -/

/-- Numbers of 64 bits are below this bound. -/
def wordBound : Nat :=
  18446744073709551616

/-- Numbers of 64 bits with a sign are below this bound, and not below its opposite. -/
def signedWordBound : Nat :=
  9223372036854775808

/-- The sum of two words, as a word. -/
def wordSum (a b : Nat) : Nat :=
  (a + b) % wordBound

theorem wordSum_lt (a b : Nat) : wordSum a b < wordBound :=
  Nat.mod_lt _ (by decide)

theorem wordSum_of_lt {a b : Nat} (fits : a + b < wordBound) : wordSum a b = a + b :=
  Nat.mod_eq_of_lt fits

theorem wordSum_zero {a : Nat} (fits : a < wordBound) : wordSum a 0 = a :=
  wordSum_of_lt fits

end TokenLayout
