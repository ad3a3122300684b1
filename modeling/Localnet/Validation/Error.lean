import Localnet.Json.Object
import Localnet.Settings
import Localnet.Staking

/-!
Why a configuration is refused. Nodes are named by their labels.
-/

namespace Localnet

inductive ValidationError where
  | missingGenesis
  | malformedGenesis (fault : Json.ObjectFault)
  | missingNetworkId
  | networkIdType (found : Json.Value)
  | missingImplDocument (node : String)
  | malformedImplDocument (node : String) (fault : Json.ObjectFault)
  | malformedConfigFile (node : String) (fault : Json.ObjectFault)
  | fieldType (node : String) (fault : FieldFault)
  | networkIdMismatch (node : String) (genesis declared : NetworkId)
  | stakingKeyWithoutCert (node : String)
  | stakingCertWithoutKey (node : String)
  | invalidStakingPair (node : String) (fault : StakingFault)
  | noBeacon
  | duplicateName (name : String)

namespace ValidationError

/-- A name that stays the same whatever the message says. -/
def code : ValidationError → String
  | .missingGenesis => "VALIDATION_MISSING_GENESIS"
  | .malformedGenesis _ => "VALIDATION_GENESIS_PARSE"
  | .missingNetworkId => "VALIDATION_MISSING_NETWORK_ID"
  | .networkIdType _ => "VALIDATION_GENESIS_NETWORK_ID_TYPE"
  | .missingImplDocument _ => "VALIDATION_MISSING_IMPL_CONFIG"
  | .malformedImplDocument _ _ => "VALIDATION_IMPL_CONFIG_PARSE"
  | .malformedConfigFile _ _ => "VALIDATION_CONFIG_FILE_PARSE"
  | .fieldType _ _ => "VALIDATION_FIELD_TYPE"
  | .networkIdMismatch _ _ _ => "VALIDATION_NETWORK_ID_MISMATCH"
  | .stakingKeyWithoutCert _ => "VALIDATION_STAKING_KEY_WITHOUT_CERT"
  | .stakingCertWithoutKey _ => "VALIDATION_STAKING_CERT_WITHOUT_KEY"
  | .invalidStakingPair _ _ => "VALIDATION_INVALID_STAKING_PAIR"
  | .noBeacon => "VALIDATION_NO_BEACON"
  | .duplicateName _ => "VALIDATION_DUPLICATE_NAME"

/-- A message that starts with the node it is about. -/
def aboutNode (node text : String) : String := "Node " ++ node ++ ": " ++ text

def message : ValidationError → String
  | .missingGenesis => "Genesis document is missing"
  | .malformedGenesis fault => "Failed to parse genesis document: " ++ fault.describe
  | .missingNetworkId => "Genesis document has no networkID"
  | .networkIdType found =>
    "Genesis networkID must be an unsigned 32-bit number, got " ++ found.write
  | .missingImplDocument node => aboutNode node "implementation-specific config is missing"
  | .malformedImplDocument node fault =>
    aboutNode node ("failed to parse implementation-specific config: " ++ fault.describe)
  | .malformedConfigFile node fault =>
    aboutNode node ("failed to parse config file: " ++ fault.describe)
  | .fieldType node fault =>
    aboutNode node ("field '" ++ fault.field ++ "' in " ++ fault.source.describe ++ " must be " ++
      fault.expected.describe)
  | .networkIdMismatch node genesis declared =>
    aboutNode node (s!"network id {declared.toNat} does not match genesis network id " ++
      s!"{genesis.toNat}")
  | .stakingKeyWithoutCert node =>
    aboutNode node "staking key given without a staking certificate"
  | .stakingCertWithoutKey node =>
    aboutNode node "staking certificate given without a staking key"
  | .invalidStakingPair node fault =>
    aboutNode node ("invalid staking key/certificate pair: " ++ fault.describe)
  | .noBeacon => "Network has nodes but none of them is a beacon"
  | .duplicateName name => "Repeated node name '" ++ name ++ "'"

end ValidationError

end Localnet
