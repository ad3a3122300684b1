/-!
Binary floating point numbers of 64 bits, as their bits. Reading rounds an exact ratio once, to the
nearest number and between two neighbours to the even one; nothing else rounds.
-/

namespace Localnet

/-- A sign bit, eleven exponent bits and fifty-two fraction bits. -/
structure Binary64 where
  bits : UInt64
  deriving DecidableEq, Inhabited

namespace Binary64

/-- The quotient rounded to the nearest natural number, a half to the even neighbour. -/
def roundDiv (num den : Nat) : Nat :=
  let quotient := num / den
  let twice := 2 * (num % den)
  if den < twice || (twice == den && quotient % 2 == 1) then quotient + 1 else quotient

/-- `2 ^ n` for a natural exponent, one for a negative one. -/
def pow2 (n : Int) : Nat := 1 <<< n.toNat

/-- The exponent of the highest power of two that is at most `num / den`. -/
def binade (num den : Nat) : Int :=
  let guess : Int := (num.log2 : Int) - den.log2
  if den * pow2 guess ≤ num * pow2 (-guess) then guess else guess - 1

/-- `2 ^ 52`: the bits below the exponent field end here. -/
def fractionLimit : Nat := 0x10000000000000

/-- `2 ^ 63`. -/
def signBit : Nat := 0x8000000000000000

/-- The bits of infinity without a sign. -/
def infinityBits : Nat := 0x7FF * fractionLimit

/-- The bits without a sign of the number nearest to `num / den`. A significand that rounds up to
`2 ^ 53` carries into the exponent field by itself. -/
def magnitudeBits (num den : Nat) : Nat :=
  if num = 0 then 0 else
    let scale := max (binade num den - 52) (-1074)
    let significand := roundDiv (num * pow2 (-scale)) (den * pow2 scale)
    min ((scale + 1074).toNat * fractionLimit + significand) infinityBits

/-- The number nearest to `num / den`, with a sign. -/
def ofRatio (negative : Bool) (num den : Nat) : Binary64 :=
  ⟨UInt64.ofNat ((if negative then signBit else 0) + magnitudeBits num den)⟩

def isNegative (x : Binary64) : Bool := signBit ≤ x.bits.toNat

/-- The bits without the sign. -/
def magnitude (x : Binary64) : Nat := x.bits.toNat % signBit

def isZero (x : Binary64) : Bool := x.magnitude == 0

def isFinite (x : Binary64) : Bool := x.magnitude < infinityBits

def isInfinite (x : Binary64) : Bool := x.magnitude == infinityBits

def neg (x : Binary64) : Binary64 :=
  ⟨x.bits ^^^ 0x8000000000000000⟩

def infinity : Binary64 := ⟨UInt64.ofNat infinityBits⟩

def nan : Binary64 := ⟨0x7FF8000000000000⟩

/-- The significand of a finite number as a natural number. -/
def significand (x : Binary64) : Nat :=
  if x.magnitude < fractionLimit then x.magnitude
  else fractionLimit + x.magnitude % fractionLimit

def scale (x : Binary64) : Int :=
  if x.magnitude < fractionLimit then -1074 else (x.magnitude / fractionLimit : Nat) - 1075

/-- A finite number without its sign as a ratio. -/
def ratio (x : Binary64) : Nat × Nat :=
  (x.significand * pow2 x.scale, pow2 (-x.scale))

/-- The rounded product of two finite numbers, their signs left out. -/
def mul (x y : Binary64) : Binary64 :=
  ofRatio false (x.ratio.1 * y.ratio.1) (x.ratio.2 * y.ratio.2)

/-- The rounded quotient of two finite numbers, their signs left out. -/
def div (x y : Binary64) : Binary64 :=
  ofRatio false (x.ratio.1 * y.ratio.2) (x.ratio.2 * y.ratio.1)

def ofNat (n : Nat) : Binary64 := ofRatio false n 1

theorem magnitudeBits_le (num den : Nat) : magnitudeBits num den ≤ infinityBits := by
  unfold magnitudeBits
  split
  · exact Nat.zero_le _
  · exact Nat.min_le_right _ _

example : ofNat 1 = ⟨0x3FF0000000000000⟩ ∧ ofRatio true 1 10 = ⟨0xBFB999999999999A⟩ := by
  decide +kernel

end Binary64

end Localnet
