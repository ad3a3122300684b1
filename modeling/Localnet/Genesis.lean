import Localnet.Text.Blank
import Localnet.Validation.Error

/-!
Genesis documents. Only the network id in them has a meaning here.
-/

namespace Localnet.Genesis

open Json (Value)

def networkIdField : String := "networkID"

/-- The network id of a genesis document. -/
def networkId (genesis : String) : Except ValidationError NetworkId :=
  if Text.allBlank genesis then .error .missingGenesis
  else
    match Json.parseObject genesis with
    | .error fault => .error (.malformedGenesis fault)
    | .ok members =>
      match Members.find? networkIdField members with
      | none => .error .missingNetworkId
      | some v =>
        match asNetworkId? v with
        | some id => .ok id
        | none => .error (.networkIdType v)

/-- A network id as a value. -/
def idValue (id : NetworkId) : Value :=
  .ofNat id.toNat (Nat.lt_trans id.toNat_lt (by decide))

/-- The genesis document of a local network. -/
def localDocument (id : NetworkId) : Value :=
  .object <| Members.ofList
    [(networkIdField, idValue id),
      ("allocations", .list []),
      ("startTime", .ofNat 1630987200 (by decide)),
      ("initialStakeDuration", .ofNat 31536000 (by decide)),
      ("initialStakeDurationOffset", .ofNat 5400 (by decide)),
      ("message", .text "netrunner local genesis")]

def localGenesis (id : NetworkId) : String := (localDocument id).write

end Localnet.Genesis
