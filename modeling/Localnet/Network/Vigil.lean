import Localnet.Network.Machine

/-!
A wait for health on its own: nobody keeps it from what it wants to see. What it sees in each round, and
how the checks of the round go, is given beforehand.
-/

namespace Localnet

/-- All that decides how a wait goes. -/
structure Outlook where
  start : Nat
  deadline : Nat
  interval : Nat
  /-- What is seen at the beginning of each round: the clients, each with the fate of its check, or why
  there are none. -/
  sights : Nat → Except NetworkError (List (Client × Fate))

/-- A round of checks that was begun. -/
structure Round where
  begun : Nat
  checks : List Check

structure Vigil where
  now : Nat
  progress : Wait.Progress
  /-- The rounds begun so far, the first one first. -/
  rounds : List Round

namespace Vigil

inductive Move where
  /-- The wait sees what it wants to see. -/
  | look
  /-- The wait goes on by itself. -/
  | advance
  /-- The wait ends at its deadline. -/
  | expire
  | tick (duration : Nat)

/-- The round that has begun, if the wait has just begun to check. -/
def roundBegun (now : Nat) : Wait.Progress → List Round
  | .phase (.checking checks) => [⟨now, checks⟩]
  | .phase _ | .ended _ => []

def look (v : Vigil) (wait : Wait) (seen : Except NetworkError (List (Client × Fate))) : Vigil :=
  let progress := wait.see v.now seen
  { v with progress, rounds := v.rounds ++ roundBegun v.now progress }

end Vigil

namespace Outlook

def waitIn (o : Outlook) (phase : Wait.Phase) : Wait := ⟨o.deadline, o.interval, phase⟩

/-- A wait that wants to begin its first round. -/
def vigil (o : Outlook) : Vigil := ⟨o.start, .phase .surveying, []⟩

/-- What a move makes of a wait, if it is possible. As in a network, a wait ends at its deadline only if
it cannot go on, and time never passes beyond a moment at which there is something to do. -/
def apply (o : Outlook) (v : Vigil) (move : Vigil.Move) : Option Vigil :=
  match v.progress with
  | .ended _ => none
  | .phase phase =>
    let wait := o.waitIn phase
    match move with
    | .look =>
      if wait.needsRegistry then some (v.look wait (o.sights v.rounds.length)) else none
    | .advance => (wait.advance? v.now).map ({ v with progress := · })
    | .expire =>
      if wait.isOverdue v.now ∧ (wait.advance? v.now).isNone ∧ ¬ wait.needsRegistry then
        some { v with progress := .ended (.error .healthTimeout) }
      else none
    | .tick duration =>
      if ¬ wait.needsRegistry ∧ (Thread.waiting wait).isIdleTill v.now (v.now + duration) then
        some { v with now := v.now + duration }
      else none

/-- Makes moves one after the other. -/
def run (o : Outlook) (v : Vigil) (moves : List Vigil.Move) : Option Vigil := moves.foldlM o.apply v

end Outlook

end Localnet
