import Localnet.Config.Node

/-!
The configuration of a network.
-/

namespace Localnet

structure NetworkConfig where
  name : String
  /-- The log level of nodes that no flag gives another one. -/
  logLevel : Option String
  /-- The genesis document, as text. -/
  genesis : String
  nodes : List NodeConfig
  flags : Flags
  deriving DecidableEq

namespace NetworkConfig

def empty : NetworkConfig := ⟨"", none, "", [], ∅⟩

instance : Inhabited NetworkConfig := ⟨empty⟩

/-- The network's flags, with its log level as the flag `log-level` if that is free. -/
def effectiveFlags (config : NetworkConfig) : Flags :=
  match config.logLevel with
  | none => config.flags
  | some level => config.flags.insertIfNew "log-level" (.text level)

/-- The flags of one of its nodes: the node's own flags before the network's. -/
def flagsOf (config : NetworkConfig) (node : NodeConfig) : Flags :=
  config.effectiveFlags.merge node.flags

end NetworkConfig

end Localnet
