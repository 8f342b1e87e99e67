import TokenLayout.Analysis.Journal
import TokenLayout.Cli.Output
import TokenLayout.Config.Codec
import TokenLayout.Text

/-! # Sessions

What a run of the program can see, and what it does: the commands as functions from a session to an
outcome.
-/

namespace TokenLayout.Cli

/-- What a run of the program can see. -/
structure Session where
  tree : FileTree
  current : Path
  home : Option Path
  configDirectory : Option Path

/-- What a run of the program leaves behind. -/
structure Outcome where
  exit : Nat
  log : List Note
  output : String
  error : Option String
  written : List (Path × String)

namespace Outcome

/-- Everything that was printed, the log included, if it was printed at a time. -/
def transcript (outcome : Outcome) (time : String) : String :=
  String.join (outcome.log.map (Note.render time)) ++ outcome.output

/-- What was printed about the error that ended the run. -/
def errorOutput (outcome : Outcome) : String :=
  match outcome.error with
  | some message => "Error: " ++ message ++ "\n"
  | none => ""

end Outcome

inductive Failure where
  | configFile (path : Path) (cause : ConfigError)
  | maximumOutOfRange
  | noKnownRule (names : List String)
  | badThreshold (text : String)
  | build (cause : AnalysisError)
  | analysis (cause : AnalysisError)
  | configExists
  | notWritable
  deriving DecidableEq

def projectConfigName : String :=
  "layout-lint.toml"

/-- The first line that is printed for a failure, without the mark of an error. -/
def Failure.message : Failure → String
  | configFile path _ => "Failed to load config: " ++ path.text
  | maximumOutOfRange => "--max-line-length is out of range"
  | noKnownRule names => "No known rule in --rules filter: " ++ ",".intercalate names
  | badThreshold text =>
    "Invalid fail_on value '" ++ text ++ "': expected error, warning, or info"
  | build _ => "Failed to build analyzer"
  | analysis _ => "Analysis failed"
  | configExists =>
    "Configuration file already exists at " ++ projectConfigName ++ ". Use --force to overwrite."
  | notWritable => "Is a directory (os error 21)"

/-- Where the configuration of a check comes from. -/
inductive ConfigSource where
  | given (path : Path)
  | project (path : Path)
  | user (path : Path)
  | builtIn
  deriving DecidableEq

namespace ConfigSource

def path? : ConfigSource → Option Path
  | given path => some path
  | project path => some path
  | user path => some path
  | builtIn => none

def notes : ConfigSource → List Note
  | given _ => []
  | project path => [⟨.debug, "Found project config: " ++ path.text⟩]
  | user path =>
    [⟨.debug, "Found global config: " ++ path.text⟩, ⟨.info, "Using global config: " ++ path.text⟩]
  | builtIn => [⟨.debug, "No configuration found, using defaults"⟩]

end ConfigSource

namespace Session

/-- The file at a path as seen from the current directory. -/
def isFile (session : Session) (path : Path) : Bool :=
  session.tree.isFile session.current path

/-- The directory for the user's configuration: the one that is given, else one in the home
directory. -/
def userDirectory (session : Session) : Option Path :=
  session.configDirectory <|> session.home.map (·.entry ".layout-lint")

/-- Where the configuration for a check of a directory comes from. A file that is given explicitly is
used whether it exists or not; then come the project's files in that directory and the user's file,
as far as they exist. -/
def configSource (session : Session) (directory : Path) (explicit : Option Path) : ConfigSource :=
  let ofProject := [projectConfigName, "." ++ projectConfigName].map directory.entry
  let ofUser := session.userDirectory.map (·.entry "config.toml")
  match explicit, ofProject.find? session.isFile, ofUser.filter session.isFile with
  | some path, _, _ => .given path
  | none, some path, _ => .project path
  | none, none, some path => .user path
  | none, none, none => .builtIn

/-- Loads the configuration for a check of a directory, or the default where there is none. -/
def loadConfig (session : Session) (directory : Path) (explicit : Option Path) :
    Except Failure Config :=
  match (session.configSource directory explicit).path? with
  | none => .ok Config.default
  | some path =>
    match session.tree.read session.current path with
    | .error cause => .error (.configFile path (.unreadable path cause))
    | .ok text =>
      match Config.parse text with
      | .ok config => .ok config
      | .error cause => .error (.configFile path cause)

end Session

def applyOverrides (config : Config) (overrides : Overrides) : Except Failure Config :=
  let withFlag (config : Config) : Config :=
    if overrides.includeGenerated then
      config.withProperty Config.includeGenerated (.boolean true)
    else config
  match overrides.maximum with
  | none => .ok (withFlag config)
  | some maximum =>
    if maximum < signedWordBound then
      .ok (withFlag (config.withProperty Config.maximumLineLength (.integer maximum)))
    else .error .maximumOutOfRange

/-- The names in a list of rules: divided by commas, without blanks around them. -/
def ruleNames (filter : String) : List String :=
  (splitAtChar ',' filter.toList).map fun name => String.ofList (trimBlank name)

def unknownRuleNotes (filter : String) : List Note :=
  ((ruleNames filter).filter fun name => (Rule.find? name).isNone).map fun name =>
    ⟨.warning, "Unknown rule: " ++ name⟩

def disableRule (config : Config) (rule : Rule) : Config :=
  let entry := (config.rules.get? rule.name).getD RuleEntry.empty
  { config with rules := config.rules.set rule.name { entry with enabled := some false } }

/-- Switches off the rules that are not asked for, in place: the outcome, and the configuration that
is left. Names that no rule has are passed over, but one must be known. -/
def restrictRules (config : Config) (names : List String) : Except Failure Unit × Config :=
  let selected := names.filterMap Rule.find?
  if selected.isEmpty then (.error (.noKnownRule names), config)
  else (.ok (), (Rule.all.filter (· ∉ selected)).foldl disableRule config)

def failThreshold (config : Config) : Except Failure Severity :=
  match config.failOn with
  | none => .ok .error
  | some text =>
    match Severity.ofName? text with
    | some severity => .ok severity
    | none => .error (.badThreshold text)

/-- A failure with a cause of its own kind in place of the one that was given. -/
def orFail {α ε : Type} (failure : ε → Failure) : Except ε α → Except Failure α
  | .ok result => .ok result
  | .error cause => .error (failure cause)

namespace Session

/-- The configuration of a check with the properties from the command line, all rules included. -/
def baseConfig (session : Session) (globals : Globals) (request : CheckRequest) :
    Except Failure Config := do
  let config ← session.loadConfig request.path globals.config
  applyOverrides config request.overrides

/-- What the analyzer of a check is made from, under a configuration. -/
def plan (request : CheckRequest) (config : Config) : AnalyzerPlan :=
  { root := some request.path, checkers := Checker.all, exclude := request.exclude, config,
    strict := false }

/-- The part of the preparations for which the configuration must be known. -/
def prepareWith (session : Session) (request : CheckRequest) (config : Config) :
    Except Failure (Analyzer × Severity) := do
  let threshold ← failThreshold config
  let analyzer ← orFail .build ((plan request config).build session.current)
  return (analyzer, threshold)

/-- The analyzer of a check, and the severity that makes the run fail. -/
def prepare (session : Session) (globals : Globals) (request : CheckRequest) :
    Except Failure (Analyzer × Severity) := do
  let config ← session.baseConfig globals request
  match request.rules with
  | none => session.prepareWith request config
  | some filter =>
    let (outcome, config) := restrictRules config (ruleNames filter)
    outcome
    session.prepareWith request config

/-- Checks documents: the report, and the severity that makes the run fail. -/
def check (session : Session) (globals : Globals) (request : CheckRequest) :
    Except Failure (Report × Severity) := do
  let (analyzer, threshold) ← session.prepare globals request
  let report ← orFail .analysis (analyzer.analyze session.tree)
  return (report, threshold)

/-- The notes of a check, up to where it fails if it does. -/
def journal (session : Session) (globals : Globals) (request : CheckRequest) : List Note :=
  (session.configSource request.path globals.config).notes ++
    (match session.baseConfig globals request with
      | .error _ => []
      | .ok _ => (request.rules.map unknownRuleNotes).getD []) ++
    match session.prepare globals request with
    | .error _ => []
    | .ok (analyzer, _) =>
      ⟨.info, s!"Analyzing {request.path.quoted} with {analyzer.checkers.length} rules " ++
          s!"(maximum line length {analyzer.settings.maximum})"⟩ ::
        analyzer.journal session.tree

/-- Writes a configuration file: its path and text. -/
def init (session : Session) (force : Bool) : Except Failure (Path × String) :=
  let path := session.current.entry projectConfigName
  match session.tree.find? path, force with
  | some _, false => .error .configExists
  | some (.directory _), true => .error .notWritable
  | _, _ => .ok (path, configTemplate)

def failed (failure : Failure) : Outcome :=
  ⟨1, [], "", some failure.message, []⟩

def printed (output : String) : Outcome :=
  ⟨0, [], output, none, []⟩

def perform (session : Session) : Command → Outcome
  | .check globals request =>
    let log := (session.journal globals request).filter (Note.isShown globals.verbose)
    match session.check globals request with
    | .error failure => { failed failure with log }
    | .ok (report, threshold) =>
      { printed (reportText report request.format) with
        exit := if report.hasAt threshold then 1 else 0, log }
  | .listRules => printed rulesText
  | .init force =>
    match session.init force with
    | .error failure => failed failure
    | .ok file => { printed initText with written := [file] }

def run (session : Session) (arguments : List String) : Outcome :=
  match Command.read arguments with
  | .ok command => session.perform command
  | .error .usage => ⟨2, [], "", some "invalid arguments", []⟩
  | .error .help => printed helpText
  | .error .version => printed versionText

/-! ## What a run looks at -/

/-- The part of an analysed directory in front of the first wildcard. -/
def searchBase (directory : Path) : Path :=
  .ofParts (directory.parts.takeWhile fun part =>
    ((Pattern.parse? part.text).bind Pattern.literal?).isSome)

/-- The files and directories that a command looks at, as seen from the current directory. -/
def sights (session : Session) : Command → List Path
  | .check globals request =>
    searchBase request.path :: globals.config.toList ++
      [projectConfigName, "." ++ projectConfigName].map request.path.entry ++
      (session.userDirectory.map (·.entry "config.toml")).toList
  | .listRules => []
  | .init _ => [⟨projectConfigName⟩]

end Session

end TokenLayout.Cli
