import TokenLayout.Config.Basic
import TokenLayout.Toml.Parser

/-! # Configurations in TOML

A configuration is read from the tables of a TOML text. Keys that mean nothing are passed over. An
`[analyzer]` table that leaves its patterns out has none, whereas the default patterns stand where
there is no such table. Layout properties may have values of any type, so date-times written as
tables are resolved in them.
-/

namespace TokenLayout

def Toml.optional {α : Type} (fields : List (String × Toml)) (name : String) (missing : α)
    (read : Toml → Option α) : Option α :=
  match fields.lookup name with
  | some value => read value
  | none => some missing

namespace Config

def ruleEntryOfToml? (value : Toml) : Option RuleEntry := do
  let fields ← value.fields? ["enabled", "severity"]
  let enabled ← Toml.optional fields "enabled" none fun value => value.bool?.map some
  let severity ← Toml.optional fields "severity" none fun value =>
    (value.choice?.bind Severity.ofName?).map some
  return ⟨enabled, severity⟩

def rulesOfToml? (value : Toml) : Option (Table RuleEntry) := do
  (← value.entries?).mapM fun (name, entry) => do return (name, ← ruleEntryOfToml? entry)

def layoutOfToml? (value : Toml) : Option (Table Toml) :=
  value.entries?.bind Toml.resolveEntries?

/-- Reads where documents are looked for and which are left out. -/
def analyzerOfToml? (value : Toml) : Option (Path × List String) := do
  let fields ← value.fields? ["root", "exclude"]
  let root ← Toml.optional fields "root" defaultRoot fun value => value.text?.map Path.mk
  let exclude ← Toml.optional fields "exclude" [] Toml.texts?
  return (root, exclude)

/-- Reads a configuration from the outermost table. -/
def ofToml? (entries : List (String × Toml)) : Option Config := do
  let failOn ← Toml.optional entries "fail_on" none fun value => value.text?.map some
  let (root, exclude) ←
    Toml.optional entries "analyzer" (default.root, default.exclude) analyzerOfToml?
  let layout ← Toml.optional entries "layout" [] layoutOfToml?
  let rules ← Toml.optional entries "rules" [] rulesOfToml?
  return { failOn, root, exclude, layout, rules }

def parse (text : String) : Except ConfigError Config :=
  match (Toml.parse? text).bind ofToml? with
  | some config => .ok config
  | none => .error .notToml

end Config

end TokenLayout
