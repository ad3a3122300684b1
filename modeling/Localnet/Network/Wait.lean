import Localnet.Network.Error
import Localnet.Network.Node

/-!
Waiting until a network is healthy. The nodes are checked in rounds: a round begins with a look at the
registry, ends with the last answer, and the next one begins an interval later. The first round in
which every node is healthy ends the wait; so does the deadline, but not before the registry was seen
for the first time.
-/

namespace Localnet

/-- How long the pause between two rounds is, in milliseconds, unless a network has its own. -/
def defaultInterval : Nat := 500

/-- How a check goes: when it is answered, if it is at all, and with what: whether the node is healthy,
or why the check failed. -/
structure Fate where
  delay : Option Nat
  answer : Except Failure Bool

/-- A check that was begun. -/
structure Check where
  client : Client
  /-- When it is answered. -/
  due : Option Nat
  answer : Except Failure Bool

namespace Check

def ofFate (now : Nat) (client : Client) (fate : Fate) : Check :=
  ⟨client, fate.delay.map (now + ·), fate.answer⟩

def isAnswered (check : Check) (now : Nat) : Bool := check.due.any (· ≤ now)

/-- Whether the answer is that the node is healthy. A check that failed counts as one of a node that is
not. -/
def healthy (check : Check) : Bool :=
  match check.answer with
  | .ok healthy => healthy
  | .error _ => false

end Check

/-- What a wait is about. -/
inductive Wait.Phase where
  /-- It wants to know whether the network is stopped. -/
  | entering
  /-- It wants to know the nodes, for the next round. -/
  | surveying
  | checking (checks : List Check)
  | pausing (till : Nat)

structure Wait where
  deadline : Nat
  interval : Nat
  phase : Wait.Phase

namespace Wait

/-- Where a wait gets to: another phase or its end. -/
inductive Progress where
  | phase (phase : Phase)
  | ended (result : Except NetworkError Unit)

def start (deadline interval : Nat) : Wait := ⟨deadline, interval, .entering⟩

/-- Whether it needs the registry to go on. -/
def needsRegistry (wait : Wait) : Bool :=
  match wait.phase with
  | .entering | .surveying => true
  | .checking _ | .pausing _ => false

/-- Whether it begins a round with its next look at the registry. -/
def surveys (wait : Wait) : Bool :=
  match wait.phase with
  | .surveying => true
  | .entering | .checking _ | .pausing _ => false

/-- The checks of a round that begins now, of clients with the fates of their checks. -/
def round (now : Nat) (targets : List (Client × Fate)) : List Check :=
  targets.map fun target => Check.ofFate now target.1 target.2

/-- Where it gets to by what it sees of the network: the clients, with the fates of the checks that
would begin now, or why there are none. -/
def see (wait : Wait) (now : Nat) : Except NetworkError (List (Client × Fate)) → Progress
  | .error e => .ended (.error e)
  | .ok targets =>
    match wait.phase with
    | .entering => .phase .surveying
    | .surveying => .phase (.checking (round now targets))
    | phase => .phase phase

/-- The same for the clients alone, when each has one fate. -/
def look (wait : Wait) (now : Nat) (fates : Client → Fate)
    (seen : Except NetworkError (List Client)) : Progress :=
  wait.see now (seen.map fun clients => clients.map fun client => (client, fates client))

/-- Where it gets to by itself: when all checks are answered, and when a pause is over. -/
def advance? (wait : Wait) (now : Nat) : Option Progress :=
  match wait.phase with
  | .entering | .surveying => none
  | .checking checks =>
    if checks.all (·.isAnswered now) then
      if checks.all (·.healthy) then some (.ended (.ok ()))
      else some (.phase (.pausing (now + wait.interval)))
    else none
  | .pausing till => if till ≤ now then some (.phase .surveying) else none

/-- Whether the deadline counts for it. -/
def isTimed (wait : Wait) : Bool :=
  match wait.phase with
  | .entering => false
  | .surveying | .checking _ | .pausing _ => true

/-- Whether it has to end at its deadline now, unless it gets anywhere else. -/
def isOverdue (wait : Wait) (now : Nat) : Bool := wait.isTimed && wait.deadline ≤ now

/-- The moments at which it may go on by itself. -/
def timers (wait : Wait) : List Nat :=
  (if wait.isTimed then [wait.deadline] else []) ++
  match wait.phase with
  | .entering | .surveying => []
  | .checking checks => checks.filterMap (·.due)
  | .pausing till => [till]

end Wait

end Localnet
