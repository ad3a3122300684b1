import Localnet.Process.Handle
import Localnet.Network.Machine
import Localnet.Service.Commands
import Localnet.Staking.Generated

/-!
The command line. Configurations are checked and networks are set up on the machine at hand; it cannot
launch processes, so that only a network without nodes gets to run.
-/

namespace Localnet.Main

/-- The error of the system that an operation ended in. -/
def systemError : IO.Error → SystemError
  | .noFileOrDirectory _ _ _ | .noSuchThing _ _ _ => .notFound
  | .permissionDenied _ _ _ => .permissionDenied
  | .alreadyExists _ _ _ => .exists
  | .inappropriateType _ code _ => if code = 20 then .notDirectory else .isDirectory
  | .invalidArgument _ _ _ => .nameTooLong
  | _ => .unsupported

def attempt {α : Type} (action : IO α) : IO (Except SystemError α) := do
  try return .ok (← action) catch e => return .error (systemError e)

def newSeed : IO (List UInt8) := return (← IO.getRandomBytes 32).toList

def somePort : IO Port := do
  let bytes ← IO.getRandomBytes 2
  return UInt16.ofNat (1024 + Bytes.toNat bytes.toList % (65536 - 1024))

def makeRoot : IO (Except PathFault String) := do
  let base := (← IO.getEnv "TMPDIR").getD "/tmp"
  let letters := (← IO.getRandomBytes 6).toList.map fun byte =>
    Base64.symbol (byte.toNat % 62)
  let path := Path.join base ("netrunner-" ++ String.ofList letters)
  return (← attempt (IO.FS.createDir path)).map (fun () => path) |>.mapError (⟨·, path⟩)

def answer : (request : HostRequest) → IO request.Answer
  | .identity => return .ok (.ofSeed (← newSeed))
  | .unusedPort => return some (← somePort)
  | .makeRoot => makeRoot
  | .makeDir path => if path = "" then return .ok () else attempt (IO.FS.createDirAll path)
  | .writeFile path text => attempt (IO.FS.writeFile path text)
  | .launch config args =>
    return (Handle.ofNode config args).map (fun _ => ()) |>.mapError (·.failure)
  | .start process => return .error (.ofSystem ("Failed to launch the process of " ++ process.node) .unsupported)
  | .stop _ => return .ok ()
  | .connect _ _ _ _ => return .ok ()
  | .close _ => return ()

def runTask {α : Type} : Task α → World → IO (α × World)
  | .done a, w => return (a, w)
  | Program.ask .registry next, w => runTask (next w.registry) w
  | Program.ask (.setRegistry r) next, w => runTask (next ()) { w with registry := r }
  | Program.ask (.host request) next, w => do
    let reply := w.grant request (← answer request)
    runTask (next reply) (w.record request reply)

/-- The network that runs, and what is known of it. -/
structure Running where
  network : Network
  world : World

/-- The outcome of a wait for health. No check is answered here. -/
def awaitHealthy (running : Running) (now deadline : Nat) : IO (Except NetworkError Unit) := do
  let silent : Client → Fate := fun _ => ⟨none, .ok false⟩
  let m := Machine.start running.network defaultInterval now running.world
  let moves := [.wait deadline, .handOver silent, .handOver silent, .advance 0]
  match (m.run moves).bind (·.result? 0) with
  | some result => return result.map fun _ => ()
  | none =>
    IO.sleep (UInt32.ofNat (deadline - now))
    return .error .healthTimeout

def reply (running : Option Running) :
    (request : Service.Request) → IO (request.Reply × Option Running)
  | .say line => do
    IO.println line
    return ((), running)
  | .read path => return (← attempt (IO.FS.readBinFile path), running)
  | .identities => do
    let seed ← newSeed
    return (.ok fun i => .ofSeed (Bytes.ofNat 1 i ++ seed), running)
  | .create config => do
    let (result, world) ← runTask (Network.create config).run ⟨.empty 0, []⟩
    return (result, result.toOption.map fun network => ⟨network, world⟩)
  | .clock => return (← IO.monoMsNow, running)
  | .healthy deadline => do
    match running with
    | some running => return (← awaitHealthy running (← IO.monoMsNow) deadline, some running)
    | none => return (.error .stopped, none)
  | .call call => do
    match running with
    | some running =>
      let (result, world) ← runTask (call.operation running.network).run running.world
      return (result, some { running with world })
    | none => return (.error .stopped, none)
  | .interrupt => do
    let _ ← (← IO.getStdin).getLine
    return (.ok (), running)

def runService {α : Type} (running : Option Running) :
    Program Service.Request Service.Request.Reply α → IO (α × Option Running)
  | .done a => return (a, running)
  | .ask request next => do
    let (reply, running) ← reply running request
    runService running (next reply)

def usage : String :=
  "Usage: netrunner [--log-format <FORMAT>] <run|default|validate|help> [OPTIONS]"

/-- The number of the main thread, which is that of the process. -/
def mainThread : IO Nat := do
  let stat ← IO.FS.readFile "/proc/self/stat"
  return (stat.takeWhile (· ≠ ' ')).toNat?.getD 0

def runCommand (command : CommandLine.Command) : IO UInt32 := do
  let (ending, running) ← runService none (Service.runCommand command).run
  if let some running := running then
    let _ ← attempt (IO.FS.removeDirAll running.network.root)
  if let .error stop := ending then
    for line in stop.report (← mainThread) do
      IO.eprintln line
  return UInt32.ofNat (Service.exitCode ending)

end Localnet.Main

def main (args : List String) : IO UInt32 := do
  match Localnet.CommandLine.parse args with
  | .command _ command => Localnet.Main.runCommand command
  | .version =>
    IO.println Localnet.Service.versionText
    return 0
  | .help =>
    IO.println Localnet.Main.usage
    return 0
  | .misuse =>
    IO.eprintln Localnet.Main.usage
    return UInt32.ofNat Localnet.Service.misuseCode
