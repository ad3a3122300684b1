import Localnet.Binary64.Basic

/-!
The shortest decimal that reads back as a given binary64 number: of all decimals in the interval of
reals that round to it those with the fewest digits, and of these the nearest.
-/

namespace Localnet

/-- The number `digits * 10 ^ exponent`. -/
structure Decimal where
  digits : Nat
  exponent : Int
  deriving DecidableEq

namespace Decimal

def trimmed (d : Decimal) : Decimal :=
  let text := Nat.toDigits 10 d.digits
  let zeros := (text.reverse.takeWhile (· == '0')).length
  if d.digits = 0 then d else ⟨d.digits / Nat.pow 10 zeros, d.exponent + zeros⟩

/-- The exponent of the first digit. -/
def leading (d : Decimal) : Int :=
  d.exponent + (Nat.toDigits 10 d.digits).length - 1

end Decimal

namespace Binary64

/-- `10 ^ n` for a natural exponent, one for a negative one. -/
def pow10 (n : Int) : Nat := Nat.pow 10 n.toNat

/-- The reals that round to a positive finite number, as numerators over one denominator. The ends
belong to it if the significand is even. -/
structure Cell where
  low : Nat
  value : Nat
  high : Nat
  den : Nat
  closed : Bool

/-- The lower end is nearer below a power of two. -/
def cell (x : Binary64) : Cell :=
  let m := x.significand
  let unit := pow2 (x.scale - 2)
  let below := if m == fractionLimit && -1074 < x.scale then 1 else 2
  { low := (4 * m - below) * unit
    value := 4 * m * unit
    high := (4 * m + 2) * unit
    den := pow2 (2 - x.scale)
    closed := m % 2 == 0 }

/-- Whether `digits * 10 ^ exponent` lies in the cell. -/
def Cell.contains (c : Cell) (d : Decimal) : Bool :=
  let point := d.digits * pow10 d.exponent * c.den
  let low := c.low * pow10 (-d.exponent)
  let high := c.high * pow10 (-d.exponent)
  if c.closed then low ≤ point && point ≤ high else low < point && point < high

/-- The exponent of the first digit of the value. The smallest positive number is above
`10 ^ (-400)`. -/
def Cell.leading (c : Cell) : Int :=
  (Nat.toDigits 10 (c.value * pow10 400 / c.den)).length - 401

/-- The nearest of the value's two neighbours on the grid of `10 ^ exponent` that lies in the cell;
at the same distance the even one. -/
def Cell.onGrid? (c : Cell) (exponent : Int) : Option Decimal :=
  let num := c.value * pow10 (-exponent)
  let den := c.den * pow10 exponent
  let floor := num / den
  let twice := 2 * (num % den)
  let down : Decimal := ⟨floor, exponent⟩
  let up : Decimal := ⟨floor + 1, exponent⟩
  match c.contains down, c.contains up with
  | true, true =>
    if twice < den || (twice == den && floor % 2 == 0) then some down else some up
  | true, false => some down
  | false, true => some up
  | false, false => none

/-- Tries the grids of `count` coarser to finer steps, from the exponent down. -/
def Cell.search (c : Cell) : Nat → Int → Decimal
  | 0, exponent => ⟨c.value * pow10 (-exponent) / (c.den * pow10 exponent), exponent⟩
  | count + 1, exponent => (c.onGrid? exponent).getD (c.search count (exponent - 1))

/-- The shortest decimal of a finite number without its sign. Seventeen digits always suffice. -/
def shortest (x : Binary64) : Decimal :=
  if x.isZero then ⟨0, 0⟩ else
    let c := x.cell
    (c.search 17 c.leading).trimmed

example : (ofRatio false 3 10).shortest = ⟨3, -1⟩ ∧ shortest ⟨1⟩ = ⟨5, -324⟩ := by
  decide +kernel

end Binary64

end Localnet
