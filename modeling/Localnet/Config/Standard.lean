import Localnet.Config.Network
import Localnet.Genesis
import Localnet.ImplDocument
import Localnet.Staking

/-!
The network that needs no configuration but a binary.
-/

namespace Localnet.NetworkConfig

def standardNetworkId : NetworkId := 1337

def standardNodeCount : Nat := 5

/-- A beacon without a name that runs a binary. -/
def standardNode (binaryPath : String) (identity : StakingIdentity) : NodeConfig :=
  { NodeConfig.empty with
    isBeacon := true
    stakingKey := identity.key
    stakingCert := identity.cert
    implDocument := some (ImplDocument.forBinary binaryPath) }

/-- Five beacons that run a binary, each with an identity of its own. -/
def standard (binaryPath : String) (identity : Nat → StakingIdentity) : NetworkConfig where
  name := "default"
  logLevel := some "INFO"
  genesis := Genesis.localGenesis standardNetworkId
  nodes := (List.range standardNodeCount).map fun i => standardNode binaryPath (identity i)
  flags := ∅

end Localnet.NetworkConfig
