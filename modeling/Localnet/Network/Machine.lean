import Localnet.Network.Call
import Localnet.Network.Wait
import Localnet.Network.World

/-!
A network that is used by several callers at once. The registry is given to one of them at a time, in
the order in which they ask for it; a call keeps it to its end, and a wait for health only while it
looks. Time passes when nothing is left to do at the moment.
-/

namespace Localnet

/-- What one caller is doing. -/
inductive Thread where
  /-- A call: all of it, or the rest of it from what it asks of the host. -/
  | calling (task : Task (Except NetworkError Answer))
  | waiting (wait : Wait)
  | ended (result : Except NetworkError Answer)

/-- Whether a thread has nothing to do by itself before a moment. -/
def Thread.isIdleTill (now till : Nat) : Thread → Bool
  | .waiting wait =>
    !wait.isOverdue now && (wait.advance? now).isNone &&
      wait.timers.all fun timer => decide (timer ≤ now ∨ till ≤ timer)
  | .calling _ | .ended _ => true

structure Machine where
  network : Network
  interval : Nat
  now : Nat
  world : World
  /-- The thread that has the registry. -/
  holder : Option Nat
  /-- The threads that want the registry. -/
  queue : List Nat
  threads : List Thread

inductive Move where
  | call (call : Call)
  | wait (deadline : Nat)
  /-- The first thread that wants the registry gets it. The fates are those of the checks that it
  begins, if it does. -/
  | handOver (fates : Client → Fate)
  /-- The host answers the thread that has the registry. -/
  | reply (answer : (request : HostRequest) → request.Answer)
  /-- A wait goes on by itself. -/
  | advance (thread : Nat)
  /-- A wait ends at its deadline. -/
  | expire (thread : Nat)
  | tick (duration : Nat)

namespace Machine

/-- A network that nobody uses yet. -/
def start (network : Network) (interval now : Nat) (world : World) : Machine :=
  ⟨network, interval, now, world, none, [], []⟩

def thread? (m : Machine) (id : Nat) : Option Thread := m.threads[id]?

/-- What a wait for health sees: the clients of all nodes, unless the network is stopped. -/
def targets (r : Registry) : Except NetworkError (List Client) :=
  if r.stopped then .error .stopped else .ok (r.nodes.values.map (·.client))

/-- Adds a thread, which wants the registry first of all. -/
def spawn (m : Machine) (thread : Thread) : Machine :=
  { m with threads := m.threads ++ [thread], queue := m.queue ++ [m.threads.length] }

def put (m : Machine) (id : Nat) (thread : Thread) : Machine :=
  { m with threads := m.threads.set id thread }

/-- A call that got the registry, or an answer, goes on. It gives the registry back at its end. -/
def proceed (m : Machine) (id : Nat) (task : Task (Except NetworkError Answer)) : Machine :=
  match m.world.settle task with
  | (.done result, world) => { m.put id (.ended result) with world, holder := none }
  | (task, world) => { m.put id (.calling task) with world, holder := some id }

/-- A wait that got somewhere. -/
def progress (m : Machine) (id : Nat) (wait : Wait) : Wait.Progress → Machine
  | .ended result => m.put id (.ended (result.map fun () => .done))
  | .phase phase =>
    let wait := { wait with phase }
    let m := m.put id (.waiting wait)
    if wait.needsRegistry then { m with queue := m.queue ++ [id] } else m

def handOver (m : Machine) (fates : Client → Fate) : Option Machine :=
  match m.holder, m.queue with
  | none, id :: queue =>
    let m := { m with queue }
    match m.thread? id with
    | some (.calling task) => some (m.proceed id task)
    | some (.waiting wait) => some (m.progress id wait (wait.look m.now fates (targets m.world.registry)))
    | some (.ended _) | none => some m
  | _, _ => none

def reply (m : Machine) (answer : (request : HostRequest) → request.Answer) : Option Machine := do
  let id ← m.holder
  match m.thread? id with
  | some (.calling (Program.ask (Request.host request) next)) =>
    let reply := m.world.grant request (answer request)
    return { m with world := m.world.record request reply }.proceed id (next reply)
  | _ => none

def advance (m : Machine) (id : Nat) : Option Machine :=
  match m.thread? id with
  | some (.waiting wait) => (wait.advance? m.now).map (m.progress id wait)
  | _ => none

/-- Whether the registry is free for a thread. -/
def isNext (m : Machine) (id : Nat) : Bool := m.holder.isNone && m.queue.head? == some id

/-- A wait ends at its deadline only if it cannot go on. It wants the registry no more then. -/
def expire (m : Machine) (id : Nat) : Option Machine :=
  match m.thread? id with
  | some (.waiting wait) =>
    if wait.isOverdue m.now ∧ (wait.advance? m.now).isNone ∧ ¬ m.isNext id then
      some { m.put id (.ended (.error .healthTimeout)) with queue := m.queue.filter (· ≠ id) }
    else none
  | _ => none

/-- Time passes, but never beyond a moment at which there is something to do. -/
def tick (m : Machine) (duration : Nat) : Option Machine :=
  if (m.holder.isNone → m.queue = []) ∧
      m.threads.all (Thread.isIdleTill m.now (m.now + duration)) then
    some { m with now := m.now + duration }
  else none

/-- What a move makes of a network, if it is possible. -/
def apply (m : Machine) : Move → Option Machine
  | .call call => some (m.spawn (.calling (call.operation m.network).run))
  | .wait deadline => some (m.spawn (.waiting (.start deadline m.interval)))
  | .handOver fates => m.handOver fates
  | .reply answer => m.reply answer
  | .advance id => m.advance id
  | .expire id => m.expire id
  | .tick duration => m.tick duration

/-- Makes moves one after the other. -/
def run (m : Machine) (moves : List Move) : Option Machine := moves.foldlM apply m

/-- What a thread that has the registry asks of the host. -/
def request? (m : Machine) (id : Nat) : Option HostRequest :=
  match m.holder, m.thread? id with
  | some holder, some (.calling (Program.ask (Request.host request) _)) =>
    if holder = id then some request else none
  | _, _ => none

/-- What came of a thread, if it has ended. -/
def result? (m : Machine) (id : Nat) : Option (Except NetworkError Answer) :=
  match m.thread? id with
  | some (.ended result) => some result
  | _ => none

end Machine

end Localnet
