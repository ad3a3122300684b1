import Localnet.Network.Error
import Localnet.Network.Registry
import Localnet.Program

/-!
What the operations of a network ask of their host, and the registry that they share.
-/

namespace Localnet

/-- What the host is asked for. -/
inductive HostRequest where
  /-- A staking identity for a node that brings none. -/
  | identity
  /-- A port that nothing listens on. -/
  | unusedPort
  /-- A directory of its own for a network. -/
  | makeRoot
  /-- A directory and those above it. -/
  | makeDir (path : String)
  | writeFile (path text : String)
  /-- A process for a node, not yet started. -/
  | launch (config : NodeConfig) (args : List String)
  | start (process : Process)
  | stop (process : Process)
  /-- A client of a node's API; its requests may take `timeout` milliseconds. -/
  | connect (node : String) (address : String) (port : Port) (timeout : Nat)
  | close (client : Client)

abbrev HostRequest.Reply : HostRequest → Type
  | .identity => Except Failure StakingIdentity
  | .unusedPort => Option Port
  | .makeRoot => Except PathFault String
  | .makeDir _ | .writeFile _ _ => Except SystemError Unit
  | .launch _ _ => Except Failure Process
  | .start _ | .stop _ => Except Failure Unit
  | .connect _ _ _ _ => Except Failure Client
  | .close _ => Unit

/-- What the host has to say to a request. The handles of processes and clients are not its own. -/
abbrev HostRequest.Answer : HostRequest → Type
  | .launch _ _ | .connect _ _ _ _ => Except Failure Unit
  | request => request.Reply

/-- What an operation asks for: a look at the registry, a change of it, or something of the host. -/
inductive Request where
  | registry
  | setRegistry (r : Registry)
  | host (request : HostRequest)

abbrev Request.Reply : Request → Type
  | .registry => Registry
  | .setRegistry _ => Unit
  | .host request => request.Reply

abbrev Task (α : Type) := Program Request Request.Reply α

/-- A task that may fail, as a whole or while a node is set up. -/
abbrev Operation (α : Type) := ExceptT NetworkError Task α

abbrev Setup (α : Type) := ExceptT Failure Task α

namespace Task

def registry : Task Registry := Program.ask Request.registry .done

def setRegistry (r : Registry) : Task Unit := Program.ask (Request.setRegistry r) .done

def modifyRegistry (f : Registry → Registry) : Task Unit := do
  setRegistry (f (← registry))

def ask (request : HostRequest) : Task request.Reply := Program.ask (Request.host request) .done

/-- Goes on to the end of a task or to what it asks of the host. -/
def settle {α : Type} : Task α → Registry → Task α × Registry
  | .done a, r => (.done a, r)
  | Program.ask .registry next, r => settle (next r) r
  | Program.ask (.setRegistry r) next, _ => settle (next ()) r
  | Program.ask (.host request) next, r => (Program.ask (.host request) next, r)

end Task

/-- Names the node that could not be set up. -/
def Setup.forNode {α : Type} (name : String) (setup : Setup α) : Operation α :=
  ExceptT.adapt (NetworkError.start name) setup

/-- Turns a failure of the system into one of what was tried. -/
def Setup.ofSystem {α : Type} (tried : String) (task : Task (Except SystemError α)) : Setup α :=
  ExceptT.adapt (Failure.ofSystem tried) (ExceptT.mk task)

end Localnet
