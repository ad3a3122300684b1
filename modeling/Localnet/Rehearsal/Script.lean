import Localnet.Network.Wait
import Localnet.Table

/-!
The script of a rehearsal: what goes wrong, what takes its time, and how the nodes feel.
-/

namespace Localnet.Rehearsal

inductive Mishap where
  | process
  | start
  | client
  | stop
  | wait
  deriving DecidableEq

def Mishap.message (node : String) : Mishap → String
  | .process => "no process for " ++ node
  | .start => node ++ " refuses to start"
  | .client => "no client for " ++ node
  | .stop => node ++ " refuses to stop"
  | .wait => node ++ " crashed"

inductive Health where
  | healthy
  | unhealthy
  | unreachable

/-- The answer to a check of a node. -/
def Health.answer (node : String) : Health → Except Failure Bool
  | .healthy => .ok true
  | .unhealthy => .ok false
  | .unreachable => .error ⟨node ++ " is not answering", []⟩

/-- How a check goes: when it is answered, and how. One that hangs is not. -/
inductive Behaviour where
  | answers (delay : Nat) (health : Health)
  | hangs

namespace Behaviour

/-- The same, but later. -/
def after (delay : Nat) : Behaviour → Behaviour
  | .answers later health => .answers (delay + later) health
  | .hangs => .hangs

def delay? : Behaviour → Option Nat
  | .answers delay _ => some delay
  | .hangs => none

def health : Behaviour → Health
  | .answers _ health => health
  | .hangs => .unreachable

def fate (b : Behaviour) (node : String) : Fate := ⟨b.delay?, b.health.answer node⟩

end Behaviour

def everyNode : String := "*"

structure Script where
  mishaps : List (Mishap × List String)
  /-- How long the processes of nodes take to start, in milliseconds. -/
  slowStarts : Table Nat
  /-- How the checks of nodes go, one after the other. -/
  health : Table (List Behaviour)

namespace Script

def befalls (script : Script) (mishap : Mishap) (node : String) : Bool :=
  script.mishaps.any fun entry => entry.1 == mishap && entry.2.any fun name =>
    name == node || name == everyNode

/-- How the check of a node goes that comes after `count` others. The last one repeats. -/
def behaviour (script : Script) (node : String) (count : Nat) : Behaviour :=
  let list := ((script.health.get? node).or (script.health.get? everyNode)).getD []
  (list[min count (list.length - 1)]?).getD (.answers 0 .healthy)

end Script

end Localnet.Rehearsal
