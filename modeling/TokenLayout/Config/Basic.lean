import TokenLayout.Check.Rule
import TokenLayout.Path
import TokenLayout.Table
import TokenLayout.Toml.Value

/-! # Configuration

What a user can configure: where documents are looked for, which are left out, the layout properties
and how each rule is reported. Layout properties are typed when they are asked for, so that a wrong
value is reported with the name of its property.
-/

namespace TokenLayout

inductive ConfigError where
  | unreadable (path : Path) (cause : ReadError)
  | notToml
  | unknownProperty (name : String)
  | invalidProperty (name : String)
  | nonPositiveLineLength (value : Int)
  deriving DecidableEq

def ConfigError.message : ConfigError → String
  | unreadable path cause => "Failed to read config file " ++ path.text ++ ": " ++ cause.message
  | notToml => "Failed to parse config"
  | unknownProperty name => s!"Cannot retrieve descriptor for property '{name}'"
  | invalidProperty name => s!"Invalid value for property '{name}'"
  | nonPositiveLineLength value => s!"maximum_line_length must be positive, got {value}"

/-- How a rule is reported. -/
structure RuleEntry where
  enabled : Option Bool
  severity : Option Severity
  deriving DecidableEq

def RuleEntry.empty : RuleEntry :=
  ⟨none, none⟩

structure Config where
  /-- The severity that makes a run fail, as it is written. -/
  failOn : Option String
  root : Path
  exclude : List String
  /-- The layout properties that are given. -/
  layout : Table Toml
  /-- How rules are reported, by name or code. -/
  rules : Table RuleEntry

namespace Config

def defaultRoot : Path :=
  ⟨"."⟩

def default : Config where
  failOn := none
  root := defaultRoot
  exclude := ["**/target/**"]
  layout := []
  rules := []

def includeGenerated : String :=
  "include_generated"

def maximumLineLength : String :=
  "maximum_line_length"

/-- The declared properties with their default values. -/
def declared : Table Toml :=
  [(includeGenerated, .boolean false), (maximumLineLength, .integer Settings.defaultMaximum)]

def withProperty (config : Config) (name : String) (value : Toml) : Config :=
  { config with layout := config.layout.set name value }

/-- The value of a layout property, or its default, read as the type that is wanted. A property that
is given need not be declared. -/
def property {α : Type} (config : Config) (name : String) (read : Toml → Option α) :
    Except ConfigError α :=
  match config.layout.get? name <|> declared.get? name with
  | none => .error (.unknownProperty name)
  | some value =>
    match read value with
    | some result => .ok result
    | none => .error (.invalidProperty name)

/-- The settings of a check. Undeclared properties are refused first, then values of the wrong type,
then a maximum that is not positive. -/
def settings (config : Config) : Except ConfigError Settings := do
  match config.layout.keys.find? fun name => (declared.get? name).isNone with
  | some name => throw (.unknownProperty name)
  | none => pure ()
  let generated ← config.property includeGenerated Toml.bool?
  let maximum ← config.property maximumLineLength Toml.int?
  match Settings.make? generated maximum.toNat with
  | some settings => return settings
  | none => throw (.nonPositiveLineLength maximum)

/-- The entry for a rule: the one under its name, else the one under its code. -/
def ruleEntry? (config : Config) (rule : Rule) : Option RuleEntry :=
  config.rules.get? rule.name <|> config.rules.get? rule.code

def isEnabled (config : Config) (rule : Rule) : Bool :=
  ((config.ruleEntry? rule).bind (·.enabled)).getD true

/-- The severity that the rule is to be reported with, if one is configured. -/
def severity? (config : Config) (rule : Rule) : Option Severity :=
  (config.ruleEntry? rule).bind (·.severity)

end Config

end TokenLayout
