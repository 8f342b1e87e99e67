/-! # Rules, severities and settings

The five layout rules with their codes, names and texts, the three severities in which a violation
can be reported, and what a check needs to know beside the document. The maximum line length is
positive by type, so no checker has to ask.
-/

namespace TokenLayout

inductive Severity where
  | info
  | warning
  | error
  deriving DecidableEq

namespace Severity

/-- All severities, the mildest first. -/
def all : List Severity :=
  [info, warning, error]

def name : Severity → String
  | info => "info"
  | warning => "warning"
  | error => "error"

def ofName? (name : String) : Option Severity :=
  all.find? (·.name == name)

/-- Position in the order from mild to serious. -/
def rank : Severity → Nat
  | info => 0
  | warning => 1
  | error => 2

def atLeast (severity threshold : Severity) : Bool :=
  threshold.rank ≤ severity.rank

end Severity

inductive Rule where
  | lineTooLong
  | trailingWhitespace
  | trailingBlankLines
  | leadingWhitespace
  | missingTrailingNewline
  deriving DecidableEq, Hashable

namespace Rule

/-- All rules, in the order of their codes. -/
def all : List Rule :=
  [lineTooLong, trailingWhitespace, trailingBlankLines, leadingWhitespace, missingTrailingNewline]

def code : Rule → String
  | lineTooLong => "LL001"
  | trailingWhitespace => "LL002"
  | trailingBlankLines => "LL003"
  | leadingWhitespace => "LL004"
  | missingTrailingNewline => "LL005"

def name : Rule → String
  | lineTooLong => "line-too-long"
  | trailingWhitespace => "trailing-whitespace"
  | trailingBlankLines => "trailing-blank-lines"
  | leadingWhitespace => "leading-whitespace"
  | missingTrailingNewline => "missing-trailing-newline"

/-- What the rule asks for, in one sentence without a full stop. -/
def description : Rule → String
  | lineTooLong => "Lines must not be longer than the configured maximum"
  | trailingWhitespace => "Lines must not end with whitespace"
  | trailingBlankLines => "Files must not end with multiple empty lines"
  | leadingWhitespace => "Files must not start with whitespace"
  | missingTrailingNewline => "Files must end with a newline"

/-- The message for a violation. Only the message on long lines depends on the context, which is
then the maximum in force. -/
def message : Rule → Option Nat → String
  | lineTooLong, some maximum => s!"Lines must not be longer than {maximum} characters."
  | lineTooLong, none => "Lines must not be longer than allowed."
  | rule, _ => rule.description ++ "."

def ofName? (name : String) : Option Rule :=
  all.find? (·.name == name)

/-- Do the texts agree up to the case of the letters a to z? -/
def sameUpToCase (a b : String) : Bool :=
  a.toList.map Char.toLower == b.toList.map Char.toLower

/-- The rule that a user asks for by its code, in either case, or by its exact name. -/
def find? (query : String) : Option Rule :=
  all.find? fun rule => sameUpToCase rule.code query || rule.name == query

end Rule

/-- The settings that a check runs with. No line can have a length below zero, so a maximum of zero
would forbid all text. -/
structure Settings where
  includeGenerated : Bool
  maximum : Nat
  maximum_pos : 0 < maximum

namespace Settings

def defaultMaximum : Nat :=
  120

def default : Settings :=
  ⟨false, defaultMaximum, by decide⟩

/-- Settings from plain values; `none` for a maximum of zero. -/
def make? (includeGenerated : Bool) (maximum : Nat) : Option Settings :=
  if positive : 0 < maximum then some ⟨includeGenerated, maximum, positive⟩ else none

/-- Is a token or document with this mark passed over? -/
def excludes (settings : Settings) (generated : Bool) : Bool :=
  generated && !settings.includeGenerated

end Settings

end TokenLayout
