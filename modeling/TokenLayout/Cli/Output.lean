import TokenLayout.Analysis.Analyzer
import TokenLayout.Cli.Command

/-! # Output

The texts that the program prints.
-/

namespace TokenLayout.Cli

inductive Colour where
  | red
  | green
  | yellow
  | blue

def Colour.on : Colour → String
  | red => "\x1b[31m"
  | green => "\x1b[32m"
  | yellow => "\x1b[33m"
  | blue => "\x1b[34m"

def Colour.paint (colour : Colour) (text : String) : String :=
  colour.on ++ text ++ "\x1b[0m"

def severityColour : Severity → Colour
  | .error => .red
  | .warning => .yellow
  | .info => .blue

/-- A diagnostic for people. -/
def diagnosticText (diagnostic : Diagnostic) : String :=
  diagnostic.code ++ " " ++ diagnostic.rule ++ " at " ++ diagnostic.location.file.text ++ ":" ++
    diagnostic.location.line.repr ++ "\n  " ++
    (severityColour diagnostic.severity).paint diagnostic.severity.name ++ ": " ++
    diagnostic.message ++ "\n\n"

/-- The last line of a report for people. -/
def summary (report : Report) : String :=
  let errors := report.count .error
  let warnings := report.count .warning
  let infos := report.count .info
  let colour : Colour := if 0 < errors then .red else if 0 < warnings then .yellow else .green
  colour.paint (s!"Found {errors} error(s), {warnings} warning(s), {infos} info(s) in " ++
    s!"{report.documentsChecked} document(s)") ++ "\n"

def reportText (report : Report) : Format → String
  | .text => String.join (report.diagnostics.map diagnosticText) ++ summary report
  | .json => report.render ++ "\n"
  | .compact => String.join (report.diagnostics.map fun diagnostic => diagnostic.line ++ "\n")

def padRight (width : Nat) (text : String) : String :=
  text ++ String.ofList (List.replicate (width - text.length) ' ')

def ruleLine (code name description : String) : String :=
  padRight 10 code ++ " " ++ padRight 28 name ++ " " ++ description ++ "\n"

def checkerLine (checker : Checker) : String :=
  "  " ++ padRight 10 checker.name ++ " " ++ checker.description ++ " (" ++
    ", ".intercalate (checker.rules.map Rule.code) ++ ")\n"

def rulesText : String :=
  "Available rules:\n\n" ++ ruleLine "Code" "Name" "Description" ++
    String.ofList (List.replicate 80 '-') ++ "\n" ++
    String.join (Rule.all.map fun rule => ruleLine rule.code rule.name rule.description) ++
    "\nCheckers:\n" ++ String.join (Checker.all.map checkerLine) ++
    "\nUse --rules to filter specific rules, e.g.:\n" ++
    "  layout-lint check --rules line-too-long,trailing-whitespace\n" ++
    "  layout-lint check --rules LL001,LL002\n"

/-- The configuration file that `init` writes. -/
def configTemplate : String :=
  "# layout-lint configuration\n" ++
  "\n" ++
  "# Severity that fails a run: \"error\" (default), \"warning\", or \"info\"\n" ++
  "# fail_on = \"error\"\n" ++
  "\n" ++
  "[analyzer]\n" ++
  "# Directory holding *.tokens.json documents (default: current directory)\n" ++
  "# root = \"./tokens\"\n" ++
  "\n" ++
  "# Glob patterns to exclude from analysis\n" ++
  "exclude = [\n" ++
  "    \"**/target/**\",\n" ++
  "]\n" ++
  "\n" ++
  "[layout]\n" ++
  "# Also check tokens and documents marked as generated\n" ++
  "include_generated = false\n" ++
  "\n" ++
  "# Longest allowed line, in characters\n" ++
  "maximum_line_length = 120\n" ++
  "\n" ++
  "# Rule configurations, keyed by name or code\n" ++
  "# Each rule can be enabled/disabled and have its severity overridden\n" ++
  "\n" ++
  "[rules.line-too-long]\n" ++
  "enabled = true\n" ++
  "# severity = \"warning\"  # Override default severity\n" ++
  "\n" ++
  "[rules.trailing-whitespace]\n" ++
  "enabled = true\n" ++
  "\n" ++
  "# [rules.LL003]\n" ++
  "# enabled = false\n"

/-- What `init` prints when it has written the file. -/
def initText : String :=
  "Created layout-lint.toml\n\nNext steps:\n" ++
    "  1. Edit layout-lint.toml to configure rules\n  2. Run: layout-lint check\n"

def versionText : String :=
  "layout-lint 0.1.0\n"

def helpText : String :=
  "Layout linter for tokenized source documents\n\n" ++
  "Usage: layout-lint [OPTIONS] <COMMAND>\n\n" ++
  "Commands:\n" ++
  "  check       Run layout checks\n" ++
  "  list-rules  List available rules\n" ++
  "  init        Initialize configuration file\n" ++
  "  help        Print this message or the help of the given subcommand(s)\n\n" ++
  "Options:\n" ++
  "  -v, --verbose          Enable verbose output\n" ++
  "  -c, --config <CONFIG>  Path to configuration file\n" ++
  "  -h, --help             Print help\n" ++
  "  -V, --version          Print version\n"

end TokenLayout.Cli
