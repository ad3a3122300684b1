import Localnet.Process.Exit

/-!
A small shell for the children of a rehearsal: commands one after the other, with what decides how the
shell ends and how long that takes. Output goes nowhere.
-/

namespace Localnet.Rehearsal.Shell

inductive Connector where
  | always
  /-- Only if the command before succeeded. -/
  | onSuccess
  /-- Only if the command before failed. -/
  | onFailure

inductive Token where
  | word (word : String)
  | connector (connector : Connector)
  | redirection

inductive Quoting where
  | bare
  | single
  | double

def self : List Char := ['$', '$']

def parameter (params : List String) (c : Char) : List Char :=
  if c = '$' then self
  else ((params[c.toNat - '0'.toNat]?).getD "").toList

/-- The word so far as a token, if there is one. -/
def flush : Option (List Char) → List Token
  | none => []
  | some word => [.word (String.ofList word)]

def extend (word : Option (List Char)) (cs : List Char) : Option (List Char) :=
  some (word.getD [] ++ cs)

def isParameter (c : Char) : Bool := c == '$' || c.isDigit

/-- The tokens of a script, after its parameters are put in. -/
def tokens (params : List String) : Quoting → (word : Option (List Char)) → List Char → List Token
  | _, word, [] => flush word
  | .single, word, c :: rest =>
    if c = '\x27' then tokens params .bare (extend word []) rest
    else tokens params .single (extend word [c]) rest
  | .double, word, '\\' :: c :: rest =>
    if c ∈ ['"', '\\', '$'] then tokens params .double (extend word [c]) rest
    else tokens params .double (extend word ['\\', c]) rest
  | .double, word, c :: rest =>
    if c = '"' then tokens params .bare (extend word []) rest
    else
      match c, rest with
      | '$', d :: rest =>
        if isParameter d then tokens params .double (extend word (parameter params d)) rest
        else tokens params .double (extend word [c]) (d :: rest)
      | _, rest => tokens params .double (extend word [c]) rest
  | .bare, word, c :: rest =>
    match c, rest with
    | ' ', rest | '\t', rest => flush word ++ tokens params .bare none rest
    | ';', rest | '\n', rest =>
      flush word ++ .connector .always :: tokens params .bare none rest
    | '&', '&' :: rest => flush word ++ .connector .onSuccess :: tokens params .bare none rest
    | '|', '|' :: rest => flush word ++ .connector .onFailure :: tokens params .bare none rest
    | '>', '&' :: rest | '>', '>' :: rest | '>', rest | '<', rest =>
      let number := (word.getD []).all Char.isDigit
      (if number then [] else flush word) ++ .redirection :: tokens params .bare none rest
    | '\x27', rest => tokens params .single (extend word []) rest
    | '"', rest => tokens params .double (extend word []) rest
    | '\\', d :: rest => tokens params .bare (extend word [d]) rest
    | '$', d :: rest =>
      if isParameter d then tokens params .bare (extend word (parameter params d)) rest
      else tokens params .bare (extend word ['$']) (d :: rest)
    | c, rest => tokens params .bare (extend word [c]) rest
termination_by _ _ cs => cs.length

structure Command where
  connector : Connector
  words : List String

/-- The commands that tokens make up, from behind those of `current`. -/
def commands (current : Command) : List Token → List Command
  | [] => [current]
  | .word word :: rest => commands { current with words := current.words ++ [word] } rest
  | .connector connector :: rest => current :: commands ⟨connector, []⟩ rest
  | .redirection :: .word _ :: rest | .redirection :: rest => commands current rest

/-- A number of seconds in milliseconds; later decimals are dropped. -/
def milliseconds? (seconds : String) : Option Nat :=
  let (whole, decimals) := seconds.toList.span (· ≠ '.')
  let decimals := decimals.drop 1
  if whole = [] ∧ decimals = [] then none
  else (String.ofList (whole ++ (decimals ++ ['0', '0', '0']).take 3)).toNat?

/-- How far a shell is: the status of the last command, how long it took by then, and how the shell
ended if it has. -/
structure State where
  status : Nat
  elapsed : Nat
  ended : Option ExitStatus

def signal? (option : String) : Option Nat :=
  let name := String.ofList (option.toList.drop 1)
  match name.toNat? with
  | some n => some n
  | none => (ExitStatus.signalNames.findIdx? (· = "SIG" ++ name)).map (· + 1)

/-- Signals that end no process that does not ask for it. -/
def isHarmless (signal : Nat) : Bool := signal ∈ [0, 17, 18, 23, 28]

def test : List String → Bool
  | ["-n", a] => a ≠ ""
  | ["-z", a] => a = ""
  | [a, "=", b] => a = b
  | [a, "!=", b] => a ≠ b
  | [a, "-eq", b] => a.toNat? = b.toNat?
  | [a, "-ne", b] => a.toNat? ≠ b.toNat?
  | [a] => a ≠ ""
  | _ => false

def statusOf (b : Bool) : Nat := if b then 0 else 1

def kill (s : State) (signal : Option Nat) : State :=
  match signal with
  | some signal =>
    if isHarmless signal then { s with status := 0 } else { s with ended := some (.signal signal) }
  | none => { s with status := 1 }

/-- Runs one command. A command that takes the shell's place ends it. -/
def run (s : State) : List String → State
  | [] | ["exec"] => { s with status := 0 }
  | "exec" :: command :: args =>
    let after := run s (command :: args)
    { after with ended := after.ended <|> some (.code after.status) }
  | "exit" :: args =>
    let status := ((args.head?.bind (·.toNat?)).getD s.status) % 256
    { s with ended := some (.code status) }
  | ["kill", "$$"] => kill s (some ExitStatus.terminate)
  | ["kill", "-s", name, "$$"] => kill s (signal? ("-" ++ name))
  | ["kill", option, "$$"] => kill s (signal? option)
  | "sleep" :: seconds :: _ =>
    match milliseconds? seconds with
    | some n => { s with status := 0, elapsed := s.elapsed + n }
    | none => { s with status := 1 }
  | "[" :: args => { s with status := statusOf (test args.dropLast) }
  | "test" :: args => { s with status := statusOf (test args) }
  | command :: _ =>
    if command ∈ ["true", ":", "echo", "printf", "trap", "set", "cd", "export", "umask"] then
      { s with status := 0 }
    else if command = "false" then { s with status := 1 }
    else { s with status := 127 }

/-- Runs a command if its turn comes. -/
def runCommand (s : State) (command : Command) : State :=
  if s.ended.isSome then s
  else
    match command.connector with
    | .always => if command.words = [] then s else run s command.words
    | .onSuccess => if s.status = 0 then run s command.words else s
    | .onFailure => if s.status = 0 then s else run s command.words

/-- How long a script runs, and how it ends. The parameters start with the shell's name. -/
def runScript (script : String) (params : List String) : Nat × ExitStatus :=
  let s := (commands ⟨.always, []⟩ (tokens params .bare none script.toList)).foldl runCommand
    ⟨0, 0, none⟩
  (s.elapsed, s.ended.getD (.code s.status))

end Localnet.Rehearsal.Shell
