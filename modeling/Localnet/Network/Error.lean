import Localnet.Failure
import Localnet.Validation.Error

/-!
Why an operation on a network fails.
-/

namespace Localnet

inductive NetworkError where
  | invalid (e : ValidationError)
  | start (node : String) (reason : Failure)
  | nodeNotFound (name : String)
  | stopped
  | healthTimeout
  | io (fault : PathFault)

namespace NetworkError

/-- A name that stays the same whatever the message says. -/
def code : NetworkError → String
  | .invalid _ => "NETWORK_INVALID_CONFIG"
  | .start _ _ => "NETWORK_NODE_START_FAILED"
  | .nodeNotFound _ => "NETWORK_NODE_NOT_FOUND"
  | .stopped => "NETWORK_STOPPED"
  | .healthTimeout => "NETWORK_HEALTH_TIMEOUT"
  | .io _ => "NETWORK_IO_ERROR"

def message : NetworkError → String
  | .invalid e => "Invalid network configuration: " ++ e.message
  | .start node reason => "Failed to start node " ++ node ++ ": " ++ reason.message
  | .nodeNotFound name => "Node " ++ name ++ " not found in network"
  | .stopped => "Network stopped"
  | .healthTimeout => "Timed out waiting for the network to become healthy"
  | .io fault => "I/O error: " ++ fault.describe

/-- The messages of what caused the error, from the nearest on. -/
def causes : NetworkError → List String
  | .invalid e => [e.message]
  | .start _ reason => reason.message :: reason.causes
  | .io fault => [fault.describe]
  | .nodeNotFound _ | .stopped | .healthTimeout => []

def failure (e : NetworkError) : Failure := ⟨e.message, e.causes⟩

end NetworkError

end Localnet
