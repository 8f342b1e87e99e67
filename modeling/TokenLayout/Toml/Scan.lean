/-! # Scanning

Readers that take characters from the front of a text. A reader that fails takes nothing, so the
next alternative starts from the same place.
-/

namespace TokenLayout

/-- A reader at the front of a text. -/
abbrev Scan (α : Type) := StateT (List Char) Option α

namespace Scan

variable {α β : Type}

def peek : Scan (Option Char) :=
  fun text => some (text.head?, text)

def atEnd : Scan Unit :=
  fun text => if text.isEmpty then some ((), text) else none

def one (accepts : Char → Bool) : Scan Char
  | c :: rest => if accepts c then some (c, rest) else none
  | [] => none

def char (c : Char) : Scan Unit := do
  let _ ← one (· == c)

def word (text : String) : Scan Unit :=
  text.toList.forM char

/-- Takes the longest run of characters of a class. -/
def run (accepts : Char → Bool) : Scan (List Char) :=
  fun text => some (text.takeWhile accepts, text.dropWhile accepts)

/-- Reads an item if there is one. -/
def option (item : Scan α) : Scan (Option α) :=
  (some <$> item) <|> pure none

/-- Reads at most as many items as a list is long. -/
def upTo (item : Scan α) : List β → Scan (List α)
  | [] => pure []
  | _ :: limit =>
    (do let first ← item
        let rest ← upTo item limit
        return first :: rest) <|> pure []

/-- Reads items as long as there are any. Every item takes at least one character, so there are no
more than the text has. -/
def many (item : Scan α) : Scan (List α) :=
  fun text => upTo item text text

/-- Reads an item and then further ones, each after a divider. -/
def divided (item : Scan α) (divider : Scan β) : Scan (List α) := do
  let first ← item
  let rest ← many (divider *> item)
  return first :: rest

def exactly (item : Scan α) : Nat → Scan (List α)
  | 0 => pure []
  | count + 1 => do
    let first ← item
    let rest ← exactly item count
    return first :: rest

def ensure (condition : Bool) : Scan Unit :=
  if condition then pure () else failure

end Scan

end TokenLayout
