import Localnet.Curve.Modular
import Localnet.Digest

/-!
The curve `y ^ 2 - x ^ 2 = 1 + d * x ^ 2 * y ^ 2` modulo `2 ^ 255 - 19`, and the public keys of its
signature scheme.
-/

namespace Localnet.Curve.Edwards

def prime : Nat := (1 <<< 255) - 19

def d : Nat := (prime - 121665) * inverse prime 121666 % prime

/-- The point `(x / z, y / z)`, with `t = x * y / z`. -/
structure Point where
  x : Nat
  y : Nat
  z : Nat
  t : Nat

def neutral : Point := ⟨0, 1, 1, 0⟩

def base : Point :=
  let x := 0x216936d3cd6e53fec0a4e231fdd6dc5c692cc7609525a7b2c9562d608f25d51a
  let y := 0x6666666666666666666666666666666666666666666666666666666666666658
  ⟨x, y, 1, x * y % prime⟩

/-- The sum of any two points; no case is special. -/
def add (p q : Point) : Point :=
  let a := subMod prime p.y p.x * subMod prime q.y q.x % prime
  let b := (p.y + p.x) * (q.y + q.x) % prime
  let c := 2 * d * p.t * q.t % prime
  let f := 2 * p.z * q.z % prime
  let e := subMod prime b a
  let g := (f + c) % prime
  let h := (a + b) % prime
  let i := subMod prime f c
  ⟨e * i % prime, g * h % prime, g * i % prime, e * h % prime⟩

/-- Bytes with the lowest first. -/
def littleEndian (n : Nat) : List UInt8 := (Bytes.ofNat 32 n).reverse

/-- `y`, with the lowest bit of `x` in the highest bit. -/
def encode (p : Point) : List UInt8 :=
  let zi := inverse prime p.z
  littleEndian (p.y * zi % prime + (p.x * zi % prime % 2) <<< 255)

/-- The first half of the seed's digest, with its lowest three bits and its highest cleared and the
next to highest set. -/
def scalar (seed : List UInt8) : Nat :=
  let n := Bytes.toNatReversed ((Digest.sha512.digest seed).take 32)
  n % (1 <<< 254) / 8 * 8 + (1 <<< 254)

def publicBytes (seed : List UInt8) : List UInt8 :=
  encode (times add neutral (scalar seed) base)

end Localnet.Curve.Edwards
