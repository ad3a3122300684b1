import Localnet.Json.Reader

/-!
Numbers of a JSON text. Digits are gathered while they fit 64 bits and counted in the exponent after
that; the float they give is rounded once as an integer and once more by each power of ten.
-/

namespace Localnet.Json

inductive Number where
  | int (n : Integer)
  | float (x : Binary64)

def Number.value : Number → Value
  | .int n => .int n
  | .float x => .float x

def Number.found : Number → Found
  | .int n => .int n.val
  | .float x => .float x

def isDigit (c : Char) : Bool := '0' ≤ c && c ≤ '9'

def digitValue (c : Char) : Nat := c.toNat - '0'.toNat

/-- The first number that has no 64 bits. -/
def wordLimit : Nat := 0x10000000000000000

/-- The first number that an exponent may not reach. -/
def exponentLimit : Nat := 0x80000000

/-- What a run of digits adds to a number that stays below a limit. -/
structure Digits where
  number : Nat
  count : Nat
  rest : List Char

/-- Appends digits to a number as long as it stays below `limit`. -/
def gather (limit : Nat) (number : Nat) (count : Nat) : List Char → Digits
  | [] => ⟨number, count, []⟩
  | c :: rest =>
    if isDigit c && number * 10 + digitValue c < limit then
      gather limit (number * 10 + digitValue c) (count + 1) rest
    else ⟨number, count, c :: rest⟩

def beforeDigit (cs : List Char) : Bool := cs.head?.any isDigit

/-- `10 ^ n` as a float. -/
def powerOfTen (n : Nat) : Binary64 := .ofNat (Nat.pow 10 n)

def greatestPower : Nat := 308

/-- A float times a power of ten; below the least power it is divided by the greatest one again and
again. There is none for an infinite product. -/
def timesPower? (x : Binary64) (exponent : Int) : (steps : Nat) → Option Binary64
  | 0 => some x
  | steps + 1 =>
    if exponent.natAbs ≤ greatestPower then
      if exponent < 0 then some (x.div (powerOfTen exponent.natAbs))
      else
        let product := x.mul (powerOfTen exponent.natAbs)
        if product.isInfinite then none else some product
    else if x.isZero then some x
    else if exponent < 0 then
      timesPower? (x.div (powerOfTen greatestPower)) (exponent + greatestPower) steps
    else none

def floatOf? (negative : Bool) (significand : Nat) (exponent : Int) : Option Binary64 :=
  let x := timesPower? (.ofNat significand) exponent (exponent.natAbs / greatestPower + 1)
  if negative then x.map Binary64.neg else x

def finish (negative : Bool) (significand : Nat) (exponent : Int) : Reader Number := fun cs =>
  match floatOf? negative significand exponent with
  | some x => .ok (.float x, cs)
  | none => .error ⟨.numberOutOfRange, cs, 0⟩

def zero (negative : Bool) : Binary64 :=
  if negative then Binary64.neg ⟨0⟩ else ⟨0⟩

/-- The sign of an exponent, if there is one. -/
def exponentSign : List Char → Bool × List Char
  | '+' :: rest => (false, rest)
  | '-' :: rest => (true, rest)
  | cs => (false, cs)

/-- An exponent, from behind its letter. One that has too many digits makes the number zero or
leaves it out of range. -/
def exponentPart (negative : Bool) (significand : Nat) (exponent : Int) : Reader Number := fun cs =>
  let (below, digits) := exponentSign cs
  match digits with
  | [] => .error ⟨.endInValue, [], 0⟩
  | c :: rest =>
    if !isDigit c then .error ⟨.invalidNumber, c :: rest, 1⟩
    else
      let taken := gather exponentLimit (digitValue c) 0 rest
      if beforeDigit taken.rest then
        if significand ≠ 0 ∧ ¬ below then .error ⟨.numberOutOfRange, taken.rest, 1⟩
        else .ok (.float (zero negative), taken.rest.dropWhile isDigit)
      else
        let shift : Int := if below then -taken.number else taken.number
        finish negative significand (exponent + shift) taken.rest

/-- An exponent if there is one. -/
def optionalExponent (negative : Bool) (significand : Nat) (exponent : Int) : Reader Number :=
  fun cs =>
    match cs with
    | c :: rest =>
      if c = 'e' || c = 'E' then exponentPart negative significand exponent rest
      else finish negative significand exponent (c :: rest)
    | [] => finish negative significand exponent []

def fraction (negative : Bool) (significand : Nat) (exponent : Int) : Reader Number := fun cs =>
  let taken := gather wordLimit significand 0 cs
  if beforeDigit taken.rest then
    optionalExponent negative taken.number (exponent - taken.count) (taken.rest.dropWhile isDigit)
  else if taken.count = 0 then
    match taken.rest with
    | [] => .error ⟨.endInValue, [], 0⟩
    | rest => .error ⟨.invalidNumber, rest, 1⟩
  else optionalExponent negative taken.number (exponent - taken.count) taken.rest

/-- An integer with its sign. Zero has none, and below `-2 ^ 63` there are floats only. -/
def signed (negative : Bool) (significand : Nat) : Number :=
  if h : significand < 0x10000000000000000 then
    if negative then
      if hneg : 0 < significand ∧ significand ≤ 0x8000000000000000 then .int ⟨-significand, by omega⟩
      else .float (Binary64.ofNat significand).neg
    else .int (.ofNat significand h)
  else .float (.ofNat significand)

def afterDigits (negative : Bool) (significand : Nat) : Reader Number := fun cs =>
  match cs with
  | '.' :: rest => fraction negative significand 0 rest
  | c :: rest =>
    if c = 'e' || c = 'E' then exponentPart negative significand 0 rest
    else .ok (signed negative significand, c :: rest)
  | [] => .ok (signed negative significand, [])

/-- What follows the digits that fit 64 bits, where more digits come. -/
def afterOverflow (negative : Bool) (significand : Nat) : Reader Number := fun cs =>
  let dropped := (cs.takeWhile isDigit).length
  match cs.dropWhile isDigit with
  | '.' :: rest => fraction negative significand dropped rest
  | rest => optionalExponent negative significand dropped rest

/-- A number without its sign. -/
def unsigned (negative : Bool) : Reader Number := fun cs =>
  match cs with
  | [] => .error ⟨.endInValue, [], 0⟩
  | c :: rest =>
    if c = '0' then
      if beforeDigit rest then .error ⟨.invalidNumber, rest, 1⟩ else afterDigits negative 0 rest
    else if isDigit c then
      let taken := gather wordLimit (digitValue c) 1 rest
      if beforeDigit taken.rest then afterOverflow negative taken.number taken.rest
      else afterDigits negative taken.number taken.rest
    else .error ⟨.invalidNumber, c :: rest, 1⟩

end Localnet.Json
