import Localnet.Curve.Edwards
import Localnet.Curve.Weierstrass
import Localnet.Der

/-!
Private keys as PKCS#8 documents: Ed25519, ECDSA on two curves, and RSA. A key counts only if its
parts agree; all that is kept of it is its public half.
-/

namespace Localnet

inductive PublicKey where
  | ed25519 (bytes : List UInt8)
  | p256 (point : List UInt8)
  | p384 (point : List UInt8)
  | rsa (modulus exponent : List UInt8)

namespace PublicKey

def ed25519Id : List UInt8 := [0x06, 0x03, 0x2B, 0x65, 0x70]

def ecId : List UInt8 := [0x06, 0x07, 0x2A, 0x86, 0x48, 0xCE, 0x3D, 0x02, 0x01]

def p256Id : List UInt8 := [0x06, 0x08, 0x2A, 0x86, 0x48, 0xCE, 0x3D, 0x03, 0x01, 0x07]

def p384Id : List UInt8 := [0x06, 0x05, 0x2B, 0x81, 0x04, 0x00, 0x22]

def rsaId : List UInt8 :=
  [0x06, 0x09, 0x2A, 0x86, 0x48, 0x86, 0xF7, 0x0D, 0x01, 0x01, 0x01, 0x05, 0x00]

/-- The subject public key info: the algorithm and the key. -/
def info (key : PublicKey) : List UInt8 :=
  let wrap (algorithm bytes : List UInt8) :=
    Der.element Der.sequence (Der.element Der.sequence algorithm ++ Der.bits bytes)
  match key with
  | .ed25519 bytes => wrap ed25519Id bytes
  | .p256 point => wrap (ecId ++ p256Id) point
  | .p384 point => wrap (ecId ++ p384Id) point
  | .rsa modulus exponent =>
    wrap rsaId (Der.element Der.sequence (Der.natural modulus ++ Der.natural exponent))

theorem info_ne_nil (key : PublicKey) : key.info ≠ [] := by
  cases key <;> simp [info, Der.element]

end PublicKey

namespace PrivateKey

structure Document where
  algorithm : List UInt8
  key : List UInt8
  /-- The public key, in documents of the second version only. -/
  publicKey : Option (List UInt8)

/-- The public key of a document of the second version, tagged as bits or wrapped around them. -/
def publicBits? (bytes : List UInt8) : Option (List UInt8) :=
  if bytes.head? = some (Der.context 1) then
    (Der.only? (Der.context 1) bytes).bind fun bits =>
      (Der.only? Der.bitString bits).bind Der.wholeBits?
  else (Der.only? (Der.primitiveContext 1) bytes).bind Der.wholeBits?

def document? (der : List UInt8) : Option Document := do
  let body ← Der.only? Der.sequence der
  let (version, body) ← Der.natural? body
  let (algorithm, body) ← Der.expect? Der.sequence body
  let (key, body) ← Der.expect? Der.octetString body
  let (_, body) ← Der.optional? (Der.context 0) body
  match version with
  | [0] => if body = [] then some ⟨algorithm, key, none⟩ else none
  | [1] => (publicBits? body).map fun bits => ⟨algorithm, key, some bits⟩
  | _ => none

def ed25519? (doc : Document) : Option PublicKey := do
  guard (doc.algorithm = PublicKey.ed25519Id)
  let seed ← Der.only? Der.octetString doc.key
  guard (seed.length = 32)
  let publicKey := Curve.Edwards.publicBytes seed
  guard (doc.publicKey.all (· = publicKey))
  return .ed25519 publicKey

/-- The public point of an EC key, which has to be given with it. -/
def point? (curve : Curve.Weierstrass) (curveId : List UInt8) (doc : Document) :
    Option (List UInt8) := do
  guard (doc.algorithm = PublicKey.ecId ++ curveId ∧ doc.publicKey = none)
  let body ← Der.only? Der.sequence doc.key
  let (version, body) ← Der.natural? body
  guard (version = [1])
  let (secret, body) ← Der.expect? Der.octetString body
  let (parameters, body) ← Der.optional? (Der.context 0) body
  guard (parameters.all (· = curveId))
  let bits ← Der.only? (Der.context 1) body
  let given ← (Der.only? Der.bitString bits).bind Der.wholeBits?
  let n := Bytes.toNat secret
  guard (secret.length = curve.size ∧ 0 < n ∧ n < curve.order)
  guard (given = curve.publicBytes n)
  return given

/-- The number of bits that a number takes. -/
def bitLength (n : Nat) : Nat := if n = 0 then 0 else n.log2 + 1

def isOdd (n : Nat) : Bool := n % 2 == 1

structure Rsa where
  n : Nat
  e : Nat
  d : Nat
  p : Nat
  q : Nat
  dp : Nat
  dq : Nat
  qInverse : Nat

/-- Whether a modulus and an exponent are of a size that is supported. -/
def Rsa.hasSize (k : Rsa) : Bool :=
  2040 < bitLength k.n && bitLength k.n ≤ 4096 && isOdd k.n &&
    65537 ≤ k.e && k.e < 0x200000000 && isOdd k.e

/-- Whether the private parts agree with one another, as far as that is checked: the primes are half
as long as the modulus and multiply to it, and the exponents lie below their moduli. -/
def Rsa.agrees (k : Rsa) : Bool :=
  let half := (bitLength k.n + 1) / 2
  bitLength k.p == half && bitLength k.q == half && half % 512 == 0 && isOdd k.p && isOdd k.q &&
    k.p * k.q % k.n == 0 &&
    half < bitLength k.d && isOdd k.d && k.d < k.n &&
    k.qInverse < k.p && k.q * k.qInverse % k.p == 1 &&
    k.dp < k.p && isOdd k.dp && k.dq < k.q && isOdd k.dq

/-- Numbers that follow one another, as many as asked for. -/
def naturals? : Nat → List UInt8 → Option (List (List UInt8) × List UInt8)
  | 0, bytes => some ([], bytes)
  | count + 1, bytes => do
    let (digits, bytes) ← Der.natural? bytes
    let (others, bytes) ← naturals? count bytes
    return (digits :: others, bytes)

def rsa? (doc : Document) : Option PublicKey := do
  guard (doc.algorithm = PublicKey.rsaId ∧ doc.publicKey = none)
  let body ← Der.only? Der.sequence doc.key
  match ← naturals? 9 body with
  | ([version, n, e, d, p, q, dp, dq, qInverse], []) =>
    let k : Rsa := ⟨Bytes.toNat n, Bytes.toNat e, Bytes.toNat d, Bytes.toNat p, Bytes.toNat q,
      Bytes.toNat dp, Bytes.toNat dq, Bytes.toNat qInverse⟩
    guard (version = [0] ∧ k.hasSize ∧ k.agrees)
    return .rsa n e
  | _ => none

/-- The public half of the key in a PKCS#8 document. -/
def publicKey? (der : List UInt8) : Option PublicKey := do
  let doc ← document? der
  ed25519? doc <|>
    (point? Curve.p256 PublicKey.p256Id doc).map .p256 <|>
    (point? Curve.p384 PublicKey.p384Id doc).map .p384 <|>
    rsa? doc

end PrivateKey

end Localnet
