import Localnet.Config.Network
import Localnet.NodeId
import Localnet.Path
import Localnet.Settings

/-!
Nodes that run: where they listen, where they keep their files, and the handles that reach them.
-/

namespace Localnet

/-- The process of a node. No two processes have one number. -/
structure Process where
  node : String
  number : Nat
  deriving DecidableEq

/-- The client of a node's API. No two clients have one number. -/
structure Client where
  node : String
  number : Nat
  deriving DecidableEq

/-- The address that every node listens on. -/
def localhost : String := "127.0.0.1"

structure Endpoints where
  httpPort : Port
  stakingPort : Port
  dir : String
  dbDir : String
  logDir : String
  deriving DecidableEq

structure Node where
  name : String
  nodeId : NodeId
  /-- The configuration in use: with the node's name, all its flags and its staking pair. -/
  config : NodeConfig
  endpoints : Endpoints
  client : Client
  process : Process
  deriving DecidableEq

namespace Node

def isBeacon (node : Node) : Bool := node.config.isBeacon

/-- The base of the addresses of its API. -/
def url (node : Node) : String :=
  s!"http://{localhost}:{node.endpoints.httpPort.toNat}"

end Node

end Localnet
