import Localnet.NodeId
import Localnet.Pem.Section
import Localnet.PrivateKey

/-!
Staking identities: a private key and a certificate that holds its public key, with the node id that
the certificate gives.
-/

namespace Localnet

structure StakingIdentity where
  key : String
  cert : String
  nodeId : NodeId

inductive KeyFault where
  | pem (fault : Pem.SectionFault)
  | unsupported

def KeyFault.describe : KeyFault → String
  | .pem fault => "PEM error: " ++ fault.describe
  | .unsupported => "Could not parse key pair"

/-- Why a key and a certificate are no staking identity. -/
inductive StakingFault where
  | malformedCert (fault : Pem.CertificateFault)
  | noCert
  | malformedKey (fault : KeyFault)
  | mismatch

def StakingFault.describe : StakingFault → String
  | .malformedCert fault => "malformed staking certificate PEM: " ++ fault.describe
  | .noCert => "no certificate found in staking certificate PEM"
  | .malformedKey fault => "malformed staking key PEM: " ++ fault.describe
  | .mismatch => "staking key does not match staking certificate"

/-- The public half of the key in a PEM text. -/
def publicKeyOf (text : String) : Except KeyFault PublicKey :=
  match Pem.sectionBytes text with
  | .error fault => .error (.pem fault)
  | .ok der =>
    match PrivateKey.publicKey? der with
    | some key => .ok key
    | none => .error .unsupported

/-- The contents of the first certificate in a PEM text. -/
def certificateOf (text : String) : Except StakingFault (List UInt8) :=
  match Pem.certificate? text with
  | .error fault => .error (.malformedCert fault)
  | .ok none => .error .noCert
  | .ok (some der) => .ok der

/-- A key belongs to a certificate if the certificate holds its public key info at any place. -/
def StakingIdentity.ofPem (key cert : String) : Except StakingFault StakingIdentity := do
  let der ← certificateOf cert
  let publicKey ← (publicKeyOf key).mapError .malformedKey
  if publicKey.info.isEmpty || !Bytes.isInfix publicKey.info der then throw .mismatch
  else return ⟨key, cert, .ofCertificate der⟩

/-- The info of a public key is never empty, so that only its place counts. -/
theorem StakingIdentity.ofPem_eq (key cert : String) :
    ofPem key cert = (do
      let der ← certificateOf cert
      let publicKey ← (publicKeyOf key).mapError .malformedKey
      if Bytes.isInfix publicKey.info der then return ⟨key, cert, .ofCertificate der⟩
      else throw .mismatch) := by
  unfold ofPem
  refine bind_congr fun der => bind_congr fun publicKey => ?_
  rw [List.isEmpty_eq_false_iff.mpr publicKey.info_ne_nil, Bool.false_or]
  cases Bytes.isInfix publicKey.info der <;> rfl

end Localnet
