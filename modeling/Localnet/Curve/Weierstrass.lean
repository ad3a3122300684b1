import Localnet.Bytes
import Localnet.Curve.Modular

/-!
The curves `y ^ 2 = x ^ 3 - 3 * x + b` over prime fields, and the public points of their private keys.
-/

namespace Localnet.Curve

/-- A curve by its field, a base point and the order of that point. -/
structure Weierstrass where
  prime : Nat
  order : Nat
  baseX : Nat
  baseY : Nat
  /-- The number of bytes of a field element. -/
  size : Nat

def p256 : Weierstrass where
  prime := 0xffffffff00000001000000000000000000000000ffffffffffffffffffffffff
  order := 0xffffffff00000000ffffffffffffffffbce6faada7179e84f3b9cac2fc632551
  baseX := 0x6b17d1f2e12c4247f8bce6e563a440f277037d812deb33a0f4a13945d898c296
  baseY := 0x4fe342e2fe1a7f9b8ee7eb4a7c0f9e162bce33576b315ececbb6406837bf51f5
  size := 32

def p384 : Weierstrass where
  prime :=
    0xfffffffffffffffffffffffffffffffffffffffffffffffffffffffffffffffeffffffff0000000000000000ffffffff
  order :=
    0xffffffffffffffffffffffffffffffffffffffffffffffffc7634d81f4372ddf581a0db248b0a77aecec196accc52973
  baseX :=
    0xaa87ca22be8b05378eb1c71ef320ad746e1d3b628ba79b9859f741e082542a385502f25dbf55296c3a545e3872760ab7
  baseY :=
    0x3617de4a96262c6f5d9e98bf9292dc29f8f41dbd289a147ce9da3113b5f0b8c00a60b1ce1d7e819d7a431d7c90ea0e5f
  size := 48

namespace Weierstrass

/-- The point `(x / z ^ 2, y / z ^ 3)`; the neutral point has `z = 0`. -/
structure Point where
  x : Nat
  y : Nat
  z : Nat

def neutral : Point := ⟨1, 1, 0⟩

variable (curve : Weierstrass)

def double (p : Point) : Point :=
  let m := curve.prime
  let yy := p.y * p.y % m
  let zz := p.z * p.z % m
  let s := 4 * p.x * yy % m
  let slope := 3 * subMod m p.x zz * (p.x + zz) % m
  let x := subMod m (slope * slope) (2 * s % m)
  let y := subMod m (slope * subMod m s x) (8 * yy * yy % m)
  ⟨x, y, 2 * p.y * p.z % m⟩

def add (p q : Point) : Point :=
  let m := curve.prime
  if p.z = 0 then q
  else if q.z = 0 then p
  else
    let pzz := p.z * p.z % m
    let qzz := q.z * q.z % m
    let u := p.x * qzz % m
    let s := p.y * q.z * qzz % m
    let h := subMod m (q.x * pzz) u
    let r := subMod m (q.y * p.z * pzz) s
    if h = 0 then if r = 0 then curve.double p else neutral
    else
      let hh := h * h % m
      let hhh := h * hh % m
      let v := u * hh % m
      let x := subMod m (subMod m (r * r) hhh) (2 * v % m)
      ⟨x, subMod m (r * subMod m v x) (s * hhh % m), h * p.z * q.z % m⟩

def multiple (n : Nat) : Nat × Nat :=
  let m := curve.prime
  let p := times curve.add neutral n ⟨curve.baseX, curve.baseY, 1⟩
  let zi := inverse m p.z
  let zz := zi * zi % m
  (p.x * zz % m, p.y * zz * zi % m)

def publicBytes (secret : Nat) : List UInt8 :=
  let (x, y) := curve.multiple secret
  4 :: Bytes.ofNat curve.size x ++ Bytes.ofNat curve.size y

/-- A signature of a number with a private number, made with a number that is used only once. -/
def sign (secret nonce message : Nat) : Nat × Nat :=
  let n := curve.order
  let r := (curve.multiple nonce).1 % n
  (r, inverse n nonce * (message + r * secret) % n)

end Weierstrass

end Localnet.Curve
