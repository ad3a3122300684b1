import Localnet.Config.Network
import Localnet.Genesis
import Localnet.ImplDocument
import Localnet.Names

/-!
Checks of a configuration before anything is started. The first failure counts, in this order: the
genesis document, each node in turn, the beacons, the names.
-/

namespace Localnet

structure ValidatedNode where
  impl : ImplDocument
  /-- The settings of all sources together: flags first, then the config file, then the document of the
  implementation. -/
  settings : NodeSettings
  /-- The identity that the node brings with it. -/
  staking : Option StakingIdentity

structure ValidatedNetwork where
  networkId : NetworkId
  /-- One name for each node, in order. -/
  names : List String
  /-- How many of the names are generated. -/
  generated : Nat
  nodes : List ValidatedNode

namespace Validation

/-- The document of the implementation, which every node has to have. -/
def implDocument (node : NodeConfig) (label : String) : Except ValidationError ImplDocument :=
  match node.implDocument.filter (!Text.allBlank ·) with
  | none => .error (.missingImplDocument label)
  | some text => ImplDocument.parse text label

def fileSettings (node : NodeConfig) (label : String) : Except ValidationError NodeSettings :=
  match node.configFile? with
  | none => .ok .none
  | some text => NodeSettings.ofConfigFile text label

def flagSettings (flags : Flags) (label : String) : Except ValidationError NodeSettings :=
  (NodeSettings.decode flags.get? .flags).mapError (.fieldType label)

/-- Every network id that a node declares, the ones that are overruled too, has to be the network's. -/
def checkNetworkId (genesis : NetworkId) (declared : List (Option NetworkId)) (label : String) :
    Except ValidationError Unit :=
  match (declared.filterMap id).find? (· ≠ genesis) with
  | none => .ok ()
  | some other => .error (.networkIdMismatch label genesis other)

/-- The identity of a node that has a key and a certificate; none if it has neither. -/
def stakingIdentity (node : NodeConfig) (label : String) :
    Except ValidationError (Option StakingIdentity) :=
  if node.stakingKey = "" then
    if node.stakingCert = "" then .ok none else .error (.stakingCertWithoutKey label)
  else if node.stakingCert = "" then .error (.stakingKeyWithoutCert label)
  else
    match StakingIdentity.ofPem node.stakingKey node.stakingCert with
    | .ok identity => .ok (some identity)
    | .error fault => .error (.invalidStakingPair label fault)

/-- Checks one node with its effective flags. -/
def validateNode (node : NodeConfig) (label : String) (flags : Flags) (genesis : NetworkId) :
    Except ValidationError ValidatedNode := do
  let impl ← implDocument node label
  let fromFile ← fileSettings node label
  let fromFlags ← flagSettings flags label
  checkNetworkId genesis [fromFlags.networkId, fromFile.networkId, impl.settings.networkId] label
  let staking ← stakingIdentity node label
  return ⟨impl, (fromFlags.«over» fromFile).«over» impl.settings, staking⟩

/-- Checks the nodes of a network from an index on. -/
def validateNodes (config : NetworkConfig) (genesis : NetworkId) (index : Nat) :
    List NodeConfig → Except ValidationError (List ValidatedNode)
  | [] => .ok []
  | node :: rest => do
    let first ← validateNode node (node.label index) (config.flagsOf node) genesis
    let others ← validateNodes config genesis (index + 1) rest
    return first :: others

def checkBeacons (nodes : List NodeConfig) : Except ValidationError Unit :=
  if nodes ≠ [] ∧ ¬ nodes.any (·.isBeacon) then .error .noBeacon else .ok ()

/-- Checks a whole network. -/
def validate (config : NetworkConfig) : Except ValidationError ValidatedNetwork := do
  let genesis ← Genesis.networkId config.genesis
  let nodes ← validateNodes config genesis 0 config.nodes
  checkBeacons config.nodes
  let names := Names.resolve config.nodes
  Names.ensureUnique names
  return ⟨genesis, names, Names.generatedCount config.nodes, nodes⟩

end Validation

end Localnet
