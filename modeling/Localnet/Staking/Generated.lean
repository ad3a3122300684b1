import Localnet.Pem.Armor
import Localnet.Staking

/-!
New staking identities: a private number for the curve P-256 and a certificate that is signed with it.
They are made of a seed, and no two seeds should be the same.
-/

namespace Localnet.StakingIdentity

def subject : String := "netrunner-node"

def ascii (text : String) : List UInt8 := text.toList.map Char.toUInt8

def secretOf (seed : List UInt8) : Nat :=
  Bytes.toNat (Digest.sha256.digest (0 :: seed)) % (Curve.p256.order - 1) + 1

def keyDocument (secret : Nat) (point : List UInt8) : List UInt8 :=
  Der.element Der.sequence <|
    Der.natural [0] ++
    Der.element Der.sequence (PublicKey.ecId ++ PublicKey.p256Id) ++
    Der.element Der.octetString (Der.element Der.sequence <|
      Der.natural [1] ++
      Der.element Der.octetString (Bytes.ofNat 32 secret) ++
      Der.element (Der.context 1) (Der.bits point))

/-- The digits of a number without leading zeros. -/
def digits (bytes : List UInt8) : List UInt8 :=
  match bytes.dropWhile (· = 0) with
  | [] => [0]
  | digits => digits

def ecdsaSha256 : List UInt8 :=
  Der.element Der.sequence [0x06, 0x08, 0x2A, 0x86, 0x48, 0xCE, 0x3D, 0x04, 0x03, 0x02]

def commonName (name : String) : List UInt8 :=
  Der.element Der.sequence <| Der.element Der.set <| Der.element Der.sequence <|
    [0x06, 0x03, 0x55, 0x04, 0x03] ++ Der.element Der.utf8Text (ascii name)

/-- What a certificate says: a serial number, its name twice, the years from 1975 to 4096 and the
public key. -/
def certificateBody (serial publicKeyInfo : List UInt8) : List UInt8 :=
  Der.element Der.sequence <|
    Der.element (Der.context 0) (Der.natural [2]) ++
    Der.natural (digits serial) ++
    ecdsaSha256 ++
    commonName subject ++
    Der.element Der.sequence
      (Der.element Der.utcTime (ascii "750101000000Z") ++
        Der.element Der.generalTime (ascii "40960101000000Z")) ++
    commonName subject ++
    publicKeyInfo

/-- A certificate that is signed with the private number whose public key it holds. -/
def selfSigned (secret nonce : Nat) (serial publicKeyInfo : List UInt8) : List UInt8 :=
  let body := certificateBody serial publicKeyInfo
  let (r, s) := Curve.p256.sign secret nonce (Bytes.toNat (Digest.sha256.digest body))
  Der.element Der.sequence <|
    body ++ ecdsaSha256 ++
    Der.bits (Der.element Der.sequence
      (Der.natural (digits (Bytes.ofNat 32 r)) ++ Der.natural (digits (Bytes.ofNat 32 s))))

def ofSeed (seed : List UInt8) : StakingIdentity :=
  let secret := secretOf seed
  let nonce := secretOf (1 :: seed)
  let point := Curve.p256.publicBytes secret
  let der :=
    selfSigned secret nonce ((Digest.sha256.digest (2 :: seed)).take 19) (PublicKey.p256 point).info
  { key := Pem.armor "PRIVATE KEY" (keyDocument secret point)
    cert := Pem.armor "CERTIFICATE" der
    nodeId := .ofCertificate der }

end Localnet.StakingIdentity
