import Localnet.CommandLine.Arguments
import Localnet.Service.Request
import Localnet.Validation

/-!
The commands: running a network until an interrupt, and checking a configuration.
-/

namespace Localnet.Service

/-- The first second that the clock never reaches. -/
def clockLimit : Nat := 0x8000000000000000

def momentIn (seconds : Nat) : Service Nat := do
  let now ← ask .clock
  if now / 1000 + seconds < clockLimit then return now + seconds * 1000
  else throw .noSuchMoment

def separator : String := "---------------------------------------------------------"

def beaconMark (isBeacon : Bool) : String := if isBeacon then " (beacon)" else ""

def showNode (name : String) (node : Node) : List String :=
  [name ++ beaconMark node.isBeacon ++ ":",
    "  Node ID:   " ++ toString node.nodeId,
    "  API:       " ++ node.url,
    s!"  Staking:   {node.endpoints.stakingPort.toNat}",
    "  Logs:      " ++ node.endpoints.logDir]

def sayAll : List String → Service Unit
  | [] => return ()
  | line :: rest => do
    say line
    sayAll rest

def nodeLines : Answer → List String
  | .nodes nodes => nodes.entries.flatMap fun entry => showNode entry.1 entry.2
  | .done | .node _ | .names _ => []

/-- Creates a network, waits until it is healthy and keeps it until an interrupt. A network that does
not become healthy is stopped. -/
def serve (config : NetworkConfig) (healthTimeout : Nat) : Service Unit := do
  say "Starting local network..."
  say ("   • Name:   " ++ if config.name = "" then "(unnamed)" else config.name)
  say s!"   • Nodes:  {config.nodes.length}"
  let network ← orFail (fun e => .because "Failed to create local network" e.failure)
    (← ask (.create config))
  let deadline ← momentIn healthTimeout
  match ← ask (.healthy deadline) with
  | .ok () => pure ()
  | .error e =>
    let _ ← ask (.call .stop)
    throw (.failed (.because "Local network did not become healthy" e.failure))
  say s!"\nNetwork {network.networkId.toNat} is healthy."
  say separator
  sayAll (nodeLines (← orFail NetworkError.failure (← ask (.call .all))))
  say separator
  say "Press Ctrl+C to stop.\n"
  orFail (fun e => ⟨e.describe, []⟩) (← ask .interrupt)
  say "\nShutting down network..."
  let _ ← orFail NetworkError.failure (← ask (.call .stop))
  say "Bye!"

def load (path : String) : Service NetworkConfig := do
  orFail LoadError.failure (NetworkConfig.load path (← ask (.read path)))

/-- A configuration that is not valid is told by the code of what is wrong with it. -/
def invalid (path : String) (e : ValidationError) : Failure :=
  ⟨path ++ " is not a valid network config", ["[" ++ e.code ++ "] " ++ e.message]⟩

def validate (path : String) : Service Unit := do
  let config ← load path
  let valid ← orFail (invalid path) (Validation.validate config)
  say ("✅ " ++ path ++ " is valid")
  say s!"   • Network ID: {valid.networkId.toNat}"
  sayAll ((valid.names.zip config.nodes).map fun (name, node) =>
    "   • " ++ name ++ beaconMark node.isBeacon)

def runCommand : CommandLine.Command → Service Unit
  | .run config healthTimeout => do serve (← load config) healthTimeout
  | .standard binaryPath healthTimeout => do
    let identity ← orFail id (← ask .identities)
    serve (.standard binaryPath identity) healthTimeout
  | .validate config => validate config

def versionText : String := "netrunner 0.1.0"

/-- The place of the addition that panics when its sum is no moment of the clock. -/
def momentSource : String :=
  "/usr/local/cargo/registry/src/index.crates.io-1949cf8c6b5b557f/tokio-1.54.1/src/time/instant.rs:161:27"

/-- The lines that tell of a panic, by the number that the system gave the main thread. -/
def panicLines (thread : Nat) (source message : String) : List String :=
  ["",
    s!"thread 'main' ({thread}) panicked at " ++ source ++ ":",
    message,
    "note: run with `RUST_BACKTRACE=1` environment variable to display a backtrace"]

/-- The lines that tell of the end of a command that ended early. -/
def Stop.report (thread : Nat) : Stop → List String
  | .failed f => f.report
  | .noSuchMoment => panicLines thread momentSource "overflow when adding duration to instant"

def exitCode : Except Stop Unit → Nat
  | .ok () => 0
  | .error (.failed _) => 1
  | .error .noSuchMoment => 101

def misuseCode : Nat := 2

end Localnet.Service
