import Localnet.ImplDocument
import Localnet.Config.Node
import Localnet.Network.Error
import Localnet.Process.Exit

/-!
Handles of processes that run as children. A handle launches one child at the most. A supervisor of its
own watches the child until it ends, and ends it once that is requested; when both have happened,
either may be what it sees first. Callers share the handle: each of them has it to itself while it
acts, but not while it waits.
-/

namespace Localnet

/-- What a supervisor tells of a child that has ended. -/
structure Exit where
  requested : Bool
  ending : Ending
  deriving DecidableEq

inductive SupervisorState where
  | watching
  | terminating
  | finished (exit : Exit)
  deriving DecidableEq

structure Supervision where
  stopRequested : Bool
  /-- How the child ended, once it has. -/
  ending : Option Ending
  supervisor : SupervisorState
  deriving DecidableEq

inductive HandleFault where
  | alreadyStarted (node : String)
  | launch (path : String) (e : SystemError)
  | neverStarted (node : String)
  | exited (node : String) (ending : Ending)
  deriving DecidableEq

def HandleFault.failure : HandleFault → Failure
  | .alreadyStarted node => ⟨"Node " ++ node ++ " process already started", []⟩
  | .launch path e => .ofSystem ("Failed to launch " ++ path) e
  | .neverStarted node => ⟨"Node " ++ node ++ " process was never started", []⟩
  | .exited node (.exited status) => ⟨"Node " ++ node ++ " exited with " ++ status.describe, []⟩
  | .exited node (.lost reason) => ⟨"Failed to reap node " ++ node ++ ": " ++ reason, []⟩

inductive HandleCall where
  | start
  | stop
  | wait
  deriving DecidableEq

inductive CallState where
  | queued (call : HandleCall)
  | holding (call : HandleCall)
  | watching
  | done (result : Except HandleFault Unit)

structure Handle where
  node : String
  binaryPath : String
  args : List String
  supervision : Option Supervision
  holder : Option Nat
  calls : List CallState
  launched : Nat

inductive HandleMove where
  | call (call : HandleCall)
  | acquire (id : Nat)
  /-- A call acts and gives the handle back. A child is launched if `launch` says so. -/
  | act (id : Nat) (launch : Except SystemError Unit)
  /-- A call that waits sees that the child has ended. -/
  | observe (id : Nat)
  | childEnds (ending : Ending)
  | noticeEnd
  | noticeRequest
  | reap

namespace Handle

def new (node binaryPath : String) (args : List String) : Handle :=
  ⟨node, binaryPath, args, none, none, [], 0⟩

def launchedChild : Supervision := ⟨false, none, .watching⟩

def finish (h : Handle) (id : Nat) (state : CallState) : Handle :=
  { h with holder := none, calls := h.calls.set id state }

def perform (h : Handle) (id : Nat) (launch : Except SystemError Unit) : HandleCall → Handle
  | .start =>
    if h.supervision.isSome then h.finish id (.done (.error (.alreadyStarted h.node)))
    else
      match launch with
      | .ok () =>
        { h.finish id (.done (.ok ())) with
          supervision := some launchedChild
          launched := h.launched + 1 }
      | .error e => h.finish id (.done (.error (.launch h.binaryPath e)))
  | .stop =>
    { h.finish id (.done (.ok ())) with
      supervision := h.supervision.map ({ · with stopRequested := true }) }
  | .wait =>
    if h.supervision.isSome then h.finish id .watching
    else h.finish id (.done (.error (.neverStarted h.node)))

/-- What a wait says of an exit: one that was requested is well whatever its status. -/
def verdict (node : String) (exit : Exit) : Except HandleFault Unit :=
  if exit.requested ∨ exit.ending.isSuccess then .ok () else .error (.exited node exit.ending)

def exit? (h : Handle) : Option Exit := do
  match (← h.supervision).supervisor with
  | .finished exit => some exit
  | .watching | .terminating => none

def supervise (h : Handle) (step : Supervision → Option Supervision) : Option Handle := do
  return { h with supervision := some (← step (← h.supervision)) }

/-- What a move makes of a handle, if it is possible. -/
def apply (h : Handle) : HandleMove → Option Handle
  | .call call => some { h with calls := h.calls ++ [.queued call] }
  | .acquire id =>
    match h.holder, h.calls[id]? with
    | none, some (.queued call) =>
      some { h with holder := some id, calls := h.calls.set id (.holding call) }
    | _, _ => none
  | .act id launch =>
    match h.calls[id]? with
    | some (.holding call) => some (h.perform id launch call)
    | _ => none
  | .observe id =>
    match h.calls[id]?, h.exit? with
    | some .watching, some exit =>
      some { h with calls := h.calls.set id (.done (verdict h.node exit)) }
    | _, _ => none
  | .childEnds ending =>
    h.supervise fun s => if s.ending.isNone then some { s with ending := some ending } else none
  | .noticeEnd =>
    h.supervise fun s =>
      match s.supervisor, s.ending with
      | .watching, some ending => some { s with supervisor := .finished ⟨false, ending⟩ }
      | _, _ => none
  | .noticeRequest =>
    h.supervise fun s =>
      match s.supervisor with
      | .watching => if s.stopRequested then some { s with supervisor := .terminating } else none
      | .terminating | .finished _ => none
  | .reap =>
    h.supervise fun s =>
      match s.supervisor, s.ending with
      | .terminating, some ending => some { s with supervisor := .finished ⟨true, ending⟩ }
      | _, _ => none

def run (h : Handle) (moves : List HandleMove) : Option Handle := moves.foldlM apply h

/-- What came of a call, if it is done. -/
def result? (h : Handle) (id : Nat) : Option (Except HandleFault Unit) :=
  match h.calls[id]? with
  | some (.done result) => some result
  | _ => none

inductive LaunchFault where
  | invalid (e : ValidationError)
  | noBinary (node : String)

def LaunchFault.failure : LaunchFault → Failure
  | .invalid e => ⟨e.message, []⟩
  | .noBinary node =>
    ⟨"Node " ++ node ++ " has no binaryPath in its implementation-specific config", []⟩

/-- The handle of a node's process, which runs the binary that the node names. -/
def ofNode (config : NodeConfig) (args : List String) : Except LaunchFault Handle := do
  let impl ← (ImplDocument.parse (config.implDocument.getD "") config.name).mapError .invalid
  match impl.binaryPath with
  | some path => return new config.name path args
  | none => throw (.noBinary config.name)

end Handle

end Localnet
