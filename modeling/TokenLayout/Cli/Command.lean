import TokenLayout.Cli.Arguments
import TokenLayout.Number
import TokenLayout.Path

/-! # Commands

The commands of the program and how they are asked for on the command line.
-/

namespace TokenLayout.Cli

inductive Format where
  | text
  | json
  | compact
  deriving DecidableEq

def Format.ofName? : String → Option Format
  | "text" => some .text
  | "json" => some .json
  | "compact" => some .compact
  | _ => none

/-- Options that every command takes. -/
structure Globals where
  verbose : Bool
  config : Option Path
  deriving DecidableEq

/-- Layout properties given on the command line. -/
structure Overrides where
  maximum : Option Nat
  includeGenerated : Bool
  deriving DecidableEq

structure CheckRequest where
  path : Path
  format : Format
  rules : Option String
  exclude : List String
  overrides : Overrides
  deriving DecidableEq

inductive Command where
  | check (globals : Globals) (request : CheckRequest)
  | listRules
  | init (force : Bool)
  deriving DecidableEq

/-! ## Reading commands -/

/-- The options of a command so far. An option that may be given once is `none` until then. -/
structure Draft where
  globals : Globals
  path : Option Path
  format : Option Format
  rules : Option String
  exclude : List String
  maximum : Option Nat
  includeGenerated : Bool
  force : Bool

namespace Draft

def empty : Draft :=
  ⟨⟨false, none⟩, none, none, none, [], none, false, false⟩

/-- Sets something that may be given once. -/
def once {α : Type} (old : Option α) (new : Option α) (put : Option α → Draft) : Option Draft :=
  if old.isSome || new.isNone then none else some (put new)

/-- Sets a flag that may be given once. -/
def raise (old : Bool) (put : Draft) : Option Draft :=
  if old then none else some put

end Draft

/-- A path on the command line, which must not be empty. -/
def path? (text : String) : Option Path :=
  if text.isEmpty then none else some ⟨text⟩

/-- A number on the command line: digits, with a plus in front if one likes, that write 64 bits. -/
def number? (text : String) : Option Nat :=
  let digits :=
    match text.toList with
    | '+' :: rest => rest
    | all => all
  if !digits.isEmpty && digits.all isDigit && valueIn 10 digits < wordBound then
    some (valueIn 10 digits)
  else none

def helpSwitch : Switch Draft :=
  ⟨"help", some 'h', .stop .help⟩

def globalSwitches : List (Switch Draft) :=
  [⟨"verbose", some 'v', .flag fun draft =>
      Draft.raise draft.globals.verbose { draft with globals := { draft.globals with verbose := true } }⟩,
    ⟨"config", some 'c', .value fun text draft =>
      Draft.once draft.globals.config (path? text) fun config =>
        { draft with globals := { draft.globals with config } }⟩,
    helpSwitch]

def checkSwitches : List (Switch Draft) :=
  [⟨"format", some 'f', .value fun text draft =>
      Draft.once draft.format (Format.ofName? text) fun format => { draft with format }⟩,
    ⟨"rules", none, .value fun text draft =>
      Draft.once draft.rules (some text) fun rules => { draft with rules }⟩,
    ⟨"exclude", some 'e', .value fun text draft =>
      some { draft with exclude := draft.exclude ++ [text] }⟩,
    ⟨"max-line-length", none, .value fun text draft =>
      Draft.once draft.maximum (number? text) fun maximum => { draft with maximum }⟩,
    ⟨"include-generated", none, .flag fun draft =>
      Draft.raise draft.includeGenerated { draft with includeGenerated := true }⟩]

def initSwitches : List (Switch Draft) :=
  [⟨"force", none, .flag fun draft => Draft.raise draft.force { draft with force := true }⟩]

def topGrammar : Grammar Draft where
  switches := globalSwitches ++ [⟨"version", some 'V', .stop .version⟩]
  word := fun _ _ => none
  commands := ["check", "list-rules", "init", "help"]

/-- The arguments of a command with options of its own and no words. -/
def plainGrammar (switches : List (Switch Draft)) : Grammar Draft where
  switches := switches ++ globalSwitches
  word := fun _ _ => none
  commands := []

/-- The arguments of a check: one word, the directory. -/
def checkGrammar : Grammar Draft where
  switches := checkSwitches ++ globalSwitches
  word := fun text draft => Draft.once draft.path (path? text) fun path => { draft with path }
  commands := []

def readHelp : List String → Stop
  | [] => .help
  | [name] => if name ∈ topGrammar.commands then .help else .usage
  | _ => .usage

/-- The check that options ask for. Options before the command count where the command gives
none. -/
def Draft.toCheck (draft : Draft) (outer : Globals) : Command :=
  .check ⟨draft.globals.verbose || outer.verbose, draft.globals.config <|> outer.config⟩
    { path := draft.path.getD ⟨"."⟩
      format := draft.format.getD .text
      rules := draft.rules
      exclude := draft.exclude
      overrides := ⟨draft.maximum, draft.includeGenerated⟩ }

def Command.read (arguments : List String) : Except Stop Command := do
  let (outer, command) ← topGrammar.read none Draft.empty arguments
  match command with
  | some ("check", rest) =>
    let (draft, _) ← checkGrammar.read none Draft.empty rest
    return draft.toCheck outer.globals
  | some ("list-rules", rest) =>
    let _ ← (plainGrammar []).read none Draft.empty rest
    return .listRules
  | some ("init", rest) =>
    let (draft, _) ← (plainGrammar initSwitches).read none Draft.empty rest
    return .init draft.force
  | some (_, rest) => throw (readHelp rest)
  | none => throw .usage

end TokenLayout.Cli
