import Localnet.Rehearsal.Session
import Localnet.Service.Commands

/-!
Rehearsals of commands: what is said is kept, the interrupt comes at once, and the processes of nodes
are programs among the files.
-/

namespace Localnet.Rehearsal

structure Console where
  session : Session
  /-- What was said, the latest line first. -/
  said : List String

namespace Console

def reply (c : Console) : (request : Service.Request) → request.Reply × Console
  | .say line => ((), { c with said := line :: c.said })
  | .read path =>
    ((c.session.host.files.read c.session.host.workDir path).map String.toUTF8, c)
  | .identities =>
    let first := c.session.host.identities
    (.ok fun i => .ofSeed (Bytes.ofNat 32 (first + i)),
      { c with
        session.host.identities := first + NetworkConfig.standardNodeCount })
  | .create config =>
    let (result, session) := Session.create c.session.host defaultInterval config
    (result, { c with session })
  | .clock => (c.session.now, c)
  | .healthy deadline =>
    let (result, session) := c.session.request (.wait deadline)
    ((result.getD (.error .stopped)).map fun _ => (), { c with session })
  | .call call =>
    let (result, session) := c.session.request (.call call)
    (result.getD (.error .stopped), { c with session })
  | .interrupt => (.ok (), c)

def run {α : Type} (c : Console) : Program Service.Request Service.Request.Reply α → α × Console
  | .done a => (a, c)
  | .ask request next =>
    let (reply, c) := c.reply request
    c.run (next reply)

end Console

structure Output where
  code : Nat
  said : List String
  complained : List String

/-- The number of the main thread of a rehearsed command. -/
def mainThread : Nat := 10

def rehearseCommand (host : Host) (command : CommandLine.Command) : Output :=
  let (ending, console) := (Console.mk (.ofHost host 0) []).run (Service.runCommand command).run
  let complained := match ending with
    | .ok () => []
    | .error stop => stop.report mainThread
  ⟨Service.exitCode ending, console.said.reverse, complained⟩

end Localnet.Rehearsal
