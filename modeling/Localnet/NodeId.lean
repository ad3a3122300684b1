import Localnet.Base58
import Localnet.Digest

/-!
Node ids: twenty bytes, written in base58 behind a label and followed by a checksum.
-/

namespace Localnet

structure NodeId where
  bytes : List UInt8
  length_eq : bytes.length = 20
  deriving DecidableEq

namespace NodeId

/-- The id that belongs to a certificate: the start of its digest. -/
def ofCertificate (der : List UInt8) : NodeId where
  bytes := (Digest.sha256.digest der).take 20
  length_eq := by
    rw [List.length_take, Digest.Variant.length_digest]
    rfl

/-- The last four bytes of the digest. -/
def checksum (bytes : List UInt8) : List UInt8 :=
  (Digest.sha256.digest bytes).drop 28

def textLabel : String := "NodeID-"

instance : ToString NodeId :=
  ⟨fun id => textLabel ++ Base58.encode (id.bytes ++ checksum id.bytes)⟩

inductive Fault where
  | missingLabel
  | base58 (fault : Base58.Fault)
  | length (count : Nat)
  | checksum
  deriving DecidableEq

def Fault.describe : Fault → String
  | .missingLabel => "missing 'NodeID-' prefix"
  | .base58 fault => "invalid base58: " ++ fault.describe
  | .length count => s!"expected 24 decoded bytes, got {count}"
  | .checksum => "checksum mismatch"

/-- The id in a payload of twenty bytes and their checksum. -/
def ofPayload (payload : List UInt8) : Except Fault NodeId :=
  if h : payload.length = 24 then
    if payload.drop 20 = checksum (payload.take 20) then
      .ok ⟨payload.take 20, by simp [h]⟩
    else .error .checksum
  else .error (.length payload.length)

def parse (text : String) : Except Fault NodeId :=
  if textLabel.toList.isPrefixOf text.toList then
    match Base58.decode (String.ofList (text.toList.drop textLabel.length)) with
    | .ok payload => ofPayload payload
    | .error fault => .error (.base58 fault)
  else .error .missingLabel

/-- Ids in the order of their bytes. -/
def le (a b : NodeId) : Bool := !decide (b.bytes < a.bytes)

end NodeId

end Localnet
