import Localnet.Flags

/-!
The configuration of one node.
-/

namespace Localnet

structure NodeConfig where
  /-- Empty if the node is to get a generated name. -/
  name : String
  /-- Whether nodes that start later bootstrap from this one. -/
  isBeacon : Bool
  /-- A private key in PEM, or empty. -/
  stakingKey : String
  /-- A certificate in PEM, or empty. -/
  stakingCert : String
  /-- The document of the node's implementation, as text. -/
  implDocument : Option String
  /-- The config file that the node is given, as text. -/
  configDocument : Option String
  flags : Flags
  deriving DecidableEq

namespace NodeConfig

def empty : NodeConfig := ⟨"", false, "", "", none, none, ∅⟩

instance : Inhabited NodeConfig := ⟨empty⟩

/-- What messages call the node at an index of the configuration. -/
def label (node : NodeConfig) (index : Nat) : String :=
  if node.name = "" then s!"#{index}" else node.name

/-- The config file, where an empty one counts as none. -/
def configFile? (node : NodeConfig) : Option String :=
  node.configDocument.filter (· ≠ "")

end NodeConfig

end Localnet
