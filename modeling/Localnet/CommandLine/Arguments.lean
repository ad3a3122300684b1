import Localnet.LogFormat
import Localnet.Text.Split

/-!
The arguments of the command line. They are read from left to right, and the first that is out of place
ends it; so does a request for help.
-/

namespace Localnet.CommandLine

inductive Command where
  | run (config : String) (healthTimeout : Nat)
  | standard (binaryPath : String) (healthTimeout : Nat)
  | validate (config : String)
  deriving DecidableEq

inductive Invocation where
  | command (format : LogFormat) (command : Command)
  | help
  | version
  | misuse
  deriving DecidableEq

/-- How long is waited for a healthy network unless told otherwise, in seconds. -/
def defaultHealthTimeout : Nat := 120

structure Options where
  logFormat : Option LogFormat
  config : Option String
  binaryPath : Option String
  healthTimeout : Option Nat

def Options.none : Options := ⟨.none, .none, .none, .none⟩

/-- A number of seconds, which may have a plus sign, below `2 ^ 64`. -/
def seconds? (text : String) : Option Nat :=
  let digits := match text.toList with
    | '+' :: digits => digits
    | digits => digits
  if digits ≠ [] ∧ digits.all Char.isDigit then
    let n := digits.foldl (fun n c => n * 10 + (c.toNat - '0'.toNat)) 0
    if n < 0x10000000000000000 then some n else .none
  else .none

/-- A path, which may not be empty. -/
def path? (text : String) : Option String := if text = "" then .none else some text

/-- An option: its name, and the options with its value. -/
structure OptionSpec where
  name : String
  put? : String → Options → Option Options

def logFormatOption : OptionSpec where
  name := "log-format"
  put? text options :=
    (LogFormat.parse text).toOption.map fun v => { options with logFormat := some v }

def configOption : OptionSpec where
  name := "config"
  put? text options := (path? text).map fun v => { options with config := some v }

def binaryPathOption : OptionSpec where
  name := "binary-path"
  put? text options := (path? text).map fun v => { options with binaryPath := some v }

def healthTimeoutOption : OptionSpec where
  name := "health-timeout"
  put? text options := (seconds? text).map fun v => { options with healthTimeout := some v }

inductive Subcommand where
  | run
  | standard
  | validate
  deriving DecidableEq

namespace Subcommand

def named : List (String × Subcommand) :=
  [("run", .run), ("default", .standard), ("validate", .validate)]

/-- The options that may follow; the log format may be given everywhere. -/
def options : Subcommand → List OptionSpec
  | .run => [logFormatOption, configOption, healthTimeoutOption]
  | .standard => [logFormatOption, binaryPathOption, healthTimeoutOption]
  | .validate => [logFormatOption, configOption]

/-- The command, if nothing is missing that it needs. -/
def command? (options : Options) : Subcommand → Option Command
  | .run => options.config.map (.run · (options.healthTimeout.getD defaultHealthTimeout))
  | .standard =>
    options.binaryPath.map (.standard · (options.healthTimeout.getD defaultHealthTimeout))
  | .validate => options.config.map .validate

end Subcommand

inductive Shape where
  /-- Two hyphens and nothing else. -/
  | separator
  | long (name : String) (value : Option String)
  | short (letters : List Char)
  | plain

def shape (arg : String) : Shape :=
  match arg.toList with
  | ['-', '-'] => .separator
  | '-' :: '-' :: rest =>
    match Text.cut? ['='] rest with
    | some (name, value) => .long (String.ofList name) (some (String.ofList value))
    | none => .long (String.ofList rest) .none
  | '-' :: c :: rest => .short (c :: rest)
  | _ => .plain

structure Level where
  options : Options
  given : List String
  /-- Whether the last value was no value of its option. -/
  isFaulty : Bool

def Level.start : Level := ⟨.none, [], false⟩

def Level.put (level : Level) (option : OptionSpec) (text : String) : Level :=
  match option.put? text level.options with
  | some options => { level with options, given := option.name :: level.given }
  | none => { level with given := option.name :: level.given, isFaulty := true }

inductive LevelEnd where
  | finished (level : Level)
  | subcommand (level : Level) (sub : Subcommand) (rest : List String)
  | help
  | version
  | misuse

/-- Only the first letter counts, as none of them takes a value. -/
def ofLetters (isTop : Bool) : List Char → LevelEnd
  | 'h' :: _ => .help
  | 'V' :: _ => if isTop then .version else .misuse
  | _ => .misuse

/-- Whether help can be had on what these names lead to. -/
def hasHelp : List String → Bool
  | [] => true
  | [name] => name = "help" ∨ (Subcommand.named.lookup name).isSome
  | _ => false

/-- Reads the options of one level. Only at the top may a subcommand follow. -/
def readLevel (isTop : Bool) (known : List OptionSpec) (level : Level) : List String → LevelEnd
  | [] => .finished level
  | arg :: rest =>
    match shape arg with
    | .separator => if rest = [] then .finished level else .misuse
    | .plain =>
      if isTop then
        if arg = "help" then if hasHelp rest then .help else .misuse
        else
          match Subcommand.named.lookup arg with
          | some sub => .subcommand level sub rest
          | none => .misuse
      else .misuse
    | .short letters => if level.isFaulty then .misuse else ofLetters isTop letters
    | .long name value =>
      if level.isFaulty then .misuse
      else
        match known.find? (·.name = name), value with
        | some option, some value =>
          if name ∈ level.given then .misuse
          else
            let level := level.put option value
            if level.isFaulty then .misuse else readLevel isTop known level rest
        | some option, none =>
          if name ∈ level.given then .misuse
          else
            match rest with
            | [] => .misuse
            | value :: rest =>
              match shape value with
              | .plain => readLevel isTop known (level.put option value) rest
              | .separator | .long _ _ | .short _ => .misuse
        | none, none =>
          if name = "help" then .help
          else if isTop ∧ name = "version" then .version
          else .misuse
        | none, some _ => .misuse

def parse (args : List String) : Invocation :=
  match readLevel true [logFormatOption] .start args with
  | .help => .help
  | .version => .version
  | .misuse | .finished _ => .misuse
  | .subcommand top sub rest =>
    match readLevel false sub.options .start rest with
    | .help => .help
    | .finished level =>
      if top.isFaulty ∨ level.isFaulty then .misuse
      else
        let format := (level.options.logFormat.or top.options.logFormat).getD .pretty
        ((sub.command? level.options).map (.command format)).getD .misuse
    | .version | .misuse | .subcommand _ _ _ => .misuse

end Localnet.CommandLine
