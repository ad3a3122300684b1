import Localnet.Network.Request

/-!
Tasks that run with a host which answers by what it was asked before. All that was asked is kept, and
every handle is given out once.
-/

namespace Localnet

/-- Something that the host was asked for, and what came of it. -/
structure Event where
  request : HostRequest
  reply : request.Reply

structure World where
  registry : Registry
  /-- All that was asked of the host, the latest first. -/
  history : List Event

namespace World

/-- A number that no handle has yet. -/
def nextHandle (w : World) : Nat := w.history.length

/-- What a request comes to, with a new handle where one is asked for. -/
def grant (w : World) : (request : HostRequest) → request.Answer → request.Reply
  | .launch config _, answer => answer.map fun () => ⟨config.name, w.nextHandle⟩
  | .connect node _ _ _, answer => answer.map fun () => ⟨node, w.nextHandle⟩
  | .identity, answer => answer
  | .unusedPort, answer => answer
  | .makeRoot, answer => answer
  | .makeDir _, answer => answer
  | .writeFile _ _, answer => answer
  | .start _, answer => answer
  | .stop _, answer => answer
  | .close _, answer => answer

/-- Keeps what came of a request. -/
def record (w : World) (request : HostRequest) (reply : request.Reply) : World :=
  { w with history := ⟨request, reply⟩ :: w.history }

/-- A host: its answer to every request, by what was asked before. -/
abbrev Oracle := List Event → (request : HostRequest) → request.Answer

/-- Runs a task to its end. -/
def run {α : Type} (oracle : Oracle) : Task α → World → α × World
  | .done a, w => (a, w)
  | Program.ask .registry next, w => run oracle (next w.registry) w
  | Program.ask (.setRegistry r) next, w => run oracle (next ()) { w with registry := r }
  | Program.ask (.host request) next, w =>
    let reply := w.grant request (oracle w.history request)
    run oracle (next reply) (w.record request reply)

/-- Goes on with a task to its end or to what it asks of the host. -/
def settle {α : Type} (task : Task α) (w : World) : Task α × World :=
  let (task, registry) := task.settle w.registry
  (task, { w with registry })

end World

end Localnet
