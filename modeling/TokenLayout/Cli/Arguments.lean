import TokenLayout.Text

/-! # Command-line arguments

Options have a long name and perhaps a short one; short ones may be written together, and a value
follows its option in the same argument or in the next. After the argument `--` everything is a
word. What options and words mean is given by functions on a state, which may refuse them.
-/

namespace TokenLayout.Cli

/-- Why arguments are not carried out. -/
inductive Stop where
  | usage
  | help
  | version
  deriving DecidableEq

/-- What an option does to the state of type `σ`; `none` refuses the option. -/
inductive Effect (σ : Type) where
  | flag (apply : σ → Option σ)
  | value (apply : String → σ → Option σ)
  | stop (reason : Stop)

structure Switch (σ : Type) where
  long : String
  short : Option Char
  effect : Effect σ

/-- The arguments that a command takes. -/
structure Grammar (σ : Type) where
  switches : List (Switch σ)
  /-- What a word does; `none` refuses it. -/
  word : String → σ → Option σ
  /-- Words that end the reading of arguments because another command begins. -/
  commands : List String

/-- What was read: the state, and the command that begins after it with its own arguments. -/
abbrev Parsed (σ : Type) := σ × Option (String × List String)

/-- The function that waits for the value of an option. -/
abbrev Waiting (σ : Type) := String → σ → Option σ

namespace Grammar

variable {σ : Type}

/-- The result of a function, or a usage error if it refuses. -/
def orUsage {α : Type} : Option α → Except Stop α
  | some result => .ok result
  | none => .error .usage

def long? (grammar : Grammar σ) (name : String) : Option (Effect σ) :=
  (grammar.switches.find? (·.long == name)).map (·.effect)

def short? (grammar : Grammar σ) (name : Char) : Option (Effect σ) :=
  (grammar.switches.find? (·.short == some name)).map (·.effect)

/-- Reads a long option after its dashes. -/
def readLong (grammar : Grammar σ) (state : σ) (text : List Char) :
    Except Stop (σ × Option (Waiting σ)) := do
  let name := String.ofList (text.takeWhile (· != '='))
  let attached := (text.dropWhile (· != '=')).tail?.map String.ofList
  match grammar.long? name, attached with
  | some (.flag apply), none => return (← orUsage (apply state), none)
  | some (.stop reason), none => throw reason
  | some (.value apply), some value => return (← orUsage (apply value state), none)
  | some (.value apply), none => return (state, some apply)
  | _, _ => throw .usage

/-- Reads short options that are written together. The first one that takes a value takes the rest,
without an equals sign in front. -/
def readShorts (grammar : Grammar σ) (state : σ) :
    List Char → Except Stop (σ × Option (Waiting σ))
  | [] => .ok (state, none)
  | c :: rest =>
    match grammar.short? c with
    | none => .error .usage
    | some (.stop reason) => .error reason
    | some (.flag apply) =>
      match apply state with
      | some state => readShorts grammar state rest
      | none => .error .usage
    | some (.value apply) =>
      match rest with
      | [] => .ok (state, some apply)
      | '=' :: value => do return (← orUsage (apply (String.ofList value) state), none)
      | value => do return (← orUsage (apply (String.ofList value) state), none)

def readWords (grammar : Grammar σ) (state : σ) (words : List String) : Except Stop σ :=
  orUsage (words.foldlM (fun state word => grammar.word word state) state)

/-- Reads arguments. An option that waits for a value takes the next argument, which must not look
like an option. -/
def read (grammar : Grammar σ) (waiting : Option (Waiting σ)) (state : σ) :
    List String → Except Stop (Parsed σ)
  | [] => if waiting.isSome then .error .usage else .ok (state, none)
  | argument :: rest =>
    match argument.toList, waiting with
    | ['-', '-'], none => do return (← grammar.readWords state rest, none)
    | '-' :: '-' :: text, none => do
      let (state, waiting) ← grammar.readLong state text
      read grammar waiting state rest
    | '-' :: c :: text, none => do
      let (state, waiting) ← grammar.readShorts state (c :: text)
      read grammar waiting state rest
    | '-' :: _ :: _, some _ => .error .usage
    | _, some apply => do
      let state ← orUsage (apply argument state)
      read grammar none state rest
    | _, none =>
      if argument ∈ grammar.commands then .ok (state, some (argument, rest))
      else do
        let state ← orUsage (grammar.word argument state)
        read grammar none state rest

end Grammar

end TokenLayout.Cli
