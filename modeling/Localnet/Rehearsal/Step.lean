import Localnet.Network.Launch
import Localnet.Rehearsal.Host

/-!
The steps of a rehearsal and what comes of them.
-/

namespace Localnet.Rehearsal

inductive Action where
  | add (document : String)
  | remove (name : String)
  | get (name : String)
  | names
  | all
  | stop
  /-- Waits until the network is healthy, at most for a time in milliseconds. -/
  | healthy (timeout : Nat)
  | spawn (id : String) (timeout : Nat)
  /-- Looks whether a wait has ended, and takes its result if it has. -/
  | poll (id : String)
  /-- Waits for a wait to end, and takes its result. -/
  | await (id : String)
  | files (name : String)
  | wait (name : String)
  | check (name : String)
  | info
  /-- Keeps a node, whatever becomes of it in the network. -/
  | hold (name : String)
  | held (name : String)
  /-- Gives the network up without stopping it. -/
  | drop
  | touch (path text : String)
  | exists (path : String)
  | sleep (duration : Nat)
  | follow (mishaps : Option (List (Mishap × List String))) (slowStarts : Option (Table Nat))
      (health : Option (Table (List Behaviour)))

inductive Step where
  | one (action : Action)
  /-- Takes steps at the same time, begun in this order. -/
  | join (steps : List Step)

inductive Outcome where
  | done
  | node (node : Node)
  | names (names : List String)
  | nodes (nodes : Table Node)
  | healthy
  | pending
  | files (node : Node) (entries : List (List String × FileEntry))
  | health (healthy : Bool)
  | network (network : Network) (rootExists : Bool)
  | dropped (rootExists : Bool)
  | exists (found : Bool)
  | joined (outcomes : List Outcome)
  | failed (e : NetworkError)
  | unreadable (e : Json.Error)
  | crashed (message : String)
  | unanswered (message : String)
  /-- There is no wait of that id, or its result was taken. -/
  | closed
  | notHeld
  | noNetwork

/-- What a step came to, and what the host was told meanwhile. -/
structure Report where
  outcome : Outcome
  /-- How long it took, in milliseconds. -/
  elapsed : Nat
  checks : Table Nat
  acts : List Act

end Localnet.Rehearsal
