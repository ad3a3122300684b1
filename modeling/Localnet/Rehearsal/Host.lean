import Localnet.Network.World
import Localnet.Rehearsal.Programs
import Localnet.Rehearsal.Script
import Localnet.Staking.Generated

/-!
The host of a rehearsal: files in memory, processes and clients that follow a script, ports and
identities from a supply.
-/

namespace Localnet.Rehearsal

/-- What a process or a client was told to do. -/
inductive Act where
  | launch (config : NodeConfig) (args : List String)
  | start (node : String)
  | stop (node : String)
  | connect (node : String) (address : String) (port : Port) (timeout : Nat)
  | close (node : String)

inductive Processes where
  | scripted
  /-- Programs among the files, by the nodes that they are launched for. -/
  | programs (handles : Table Handle)

structure Host where
  script : Script
  processes : Processes
  files : FileTree
  /-- The directory in which paths start that do not start at the top. -/
  workDir : FileTree.Place
  rootPath : String
  ports : List Port
  identities : Nat
  /-- How often each node was checked since it got its client. -/
  counts : Table Nat
  /-- How often each node was checked since the last report. -/
  checks : Table Nat
  /-- What was done since the last report, the latest first. -/
  acts : List Act

namespace Host

def note (h : Host) (act : Act) : Host := { h with acts := act :: h.acts }

def check (h : Host) (node : String) : Behaviour × Host :=
  let count := (h.counts.get? node).getD 0
  (h.script.behaviour node count,
    { h with
      counts := h.counts.insert node (count + 1)
      checks := h.checks.insert node ((h.checks.get? node).getD 0 + 1) })

def checkAll (h : Host) : List Node → List (Client × Fate) × Host
  | [] => ([], h)
  | node :: rest =>
    let (behaviour, h) := h.check node.name
    let (fates, h) := h.checkAll rest
    ((node.client, behaviour.fate node.name) :: fates, h)

/-- Fails if a mishap befalls a node. -/
def attempt (h : Host) (mishap : Mishap) (node : String) : Except Failure Unit :=
  if h.script.befalls mishap node then .error ⟨mishap.message node, []⟩ else .ok ()

/-- The process of a node, if there is one for it. -/
def launch (config : NodeConfig) (args : List String) : Except Failure Handle :=
  (Handle.ofNode config args).mapError (·.failure)

def start (h : Host) (node : String) : Except Failure Unit :=
  match h.processes with
  | .scripted => h.attempt .start node
  | .programs handles =>
    match handles.get? node with
    | none => .ok ()
    | some handle =>
      ((callHandle h.files h.workDir handle .start).1.getD (.ok ())).mapError (·.failure)

def delay (h : Host) : HostRequest → Nat
  | .start process => (h.script.slowStarts.get? process.node).getD 0
  | _ => 0

def answer (h : Host) : (request : HostRequest) → request.Answer
  | .identity => .ok (.ofSeed (Bytes.ofNat 32 h.identities))
  | .unusedPort => h.ports.head?
  | .makeRoot =>
    match h.files.makeDir h.workDir h.rootPath with
    | .ok _ => .ok h.rootPath
    | .error error => .error ⟨error, h.rootPath⟩
  | .makeDir path => (h.files.makeDirs h.workDir path).2
  | .writeFile path text => (h.files.write h.workDir path text).map fun _ => ()
  | .launch config args =>
    match h.processes with
    | .scripted => h.attempt .process config.name
    | .programs _ => (launch config args).map fun _ => ()
  | .start process => h.start process.node
  | .stop process => h.attempt .stop process.node
  | .connect node _ _ _ => h.attempt .client node
  | .close _ => ()

def after (h : Host) : HostRequest → Host
  | .identity => { h with identities := h.identities + 1 }
  | .unusedPort => { h with ports := h.ports.tail }
  | .makeRoot => { h with files := (h.files.makeDir h.workDir h.rootPath).toOption.getD h.files }
  | .makeDir path => { h with files := (h.files.makeDirs h.workDir path).1 }
  | .writeFile path text =>
    { h with files := (h.files.write h.workDir path text).toOption.getD h.files }
  | .launch config args =>
    { h.note (.launch config args) with
      processes :=
        match h.processes, launch config args with
        | .programs handles, .ok handle => .programs (handles.insert config.name handle)
        | processes, _ => processes }
  | .start process => h.note (.start process.node)
  | .stop process => h.note (.stop process.node)
  | .connect node address port timeout =>
    { h.note (.connect node address port timeout) with
      counts := if (h.attempt .client node).isOk then h.counts.erase node else h.counts }
  | .close client => h.note (.close client.node)

/-- Runs a task to its end. `elapsed` is how long it took by then. -/
def run {α : Type} (h : Host) (elapsed : Nat) : Task α → World → α × World × Host × Nat
  | .done a, w => (a, w, h, elapsed)
  | Program.ask .registry next, w => h.run elapsed (next w.registry) w
  | Program.ask (.setRegistry r) next, w => h.run elapsed (next ()) { w with registry := r }
  | Program.ask (.host request) next, w =>
    let reply := w.grant request (h.answer request)
    (h.after request).run (elapsed + h.delay request) (next reply) (w.record request reply)

def removeRoot (h : Host) : Host :=
  match h.files.find h.workDir h.rootPath with
  | .ok place => { h with files := h.files.remove place }
  | .error _ => h

def rootExists (h : Host) : Bool := h.files.contains h.workDir h.rootPath

/-- Follows another script. The counts of the checks begin anew if the nodes feel otherwise. -/
def follow (h : Host) (mishaps : Option (List (Mishap × List String))) (slowStarts : Option (Table Nat))
    (health : Option (Table (List Behaviour))) : Host :=
  { h with
    script :=
      { mishaps := mishaps.getD h.script.mishaps
        slowStarts := slowStarts.getD h.script.slowStarts
        health := health.getD h.script.health }
    counts := if health.isSome then ∅ else h.counts }

end Host

end Localnet.Rehearsal
