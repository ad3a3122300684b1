import Localnet.Binary64.Shortest
import Localnet.Json.Value

/-!
The written form of a JSON value: no blanks, members in the order of their names, floats with the
fewest digits that read back.
-/

namespace Localnet.Json

structure FloatFormat where
  /-- The least exponent of the first digit that is written with leading zeros. -/
  positionalFrom : Int
  /-- The least exponent of the first digit that is written with an exponent again. -/
  positionalBelow : Int

/-- From `0.00001` up to sixteen places before the point a float is written without an exponent. -/
def floatFormat : FloatFormat := ⟨-5, 16⟩

/-- The digits with a point after the first one, and none if there is only one. -/
def pointed : List Char → List Char
  | [] => []
  | [digit] => [digit]
  | digit :: rest => digit :: '.' :: rest

def zeros (n : Int) : List Char := List.replicate n.toNat '0'

/-- A decimal without an exponent, with at least one digit on either side of the point. -/
def positional (digits : List Char) (exponent : Int) : List Char :=
  let before : Int := digits.length + exponent
  if 0 ≤ exponent then digits ++ zeros exponent ++ ['.', '0']
  else if 0 < before then digits.take before.toNat ++ '.' :: digits.drop before.toNat
  else '0' :: '.' :: zeros (-before) ++ digits

/-- A decimal with one digit before the point and a signed exponent. -/
def scientific (digits : List Char) (leading : Int) : List Char :=
  pointed digits ++ 'e' :: (if leading < 0 then '-' else '+') :: Nat.toDigits 10 leading.natAbs

def writeDecimal (format : FloatFormat) (d : Decimal) : List Char :=
  let digits := Nat.toDigits 10 d.digits
  if d.digits = 0 ∨ (format.positionalFrom ≤ d.leading ∧ d.leading < format.positionalBelow) then
    positional digits d.exponent
  else scientific digits d.leading

/-- What is no number is written as `null`. -/
def writeFloat (x : Binary64) : List Char :=
  if x.isFinite then
    (if x.isNegative then ['-'] else []) ++ writeDecimal floatFormat x.shortest
  else ['n', 'u', 'l', 'l']

def writeInt (n : Int) : List Char :=
  (if n < 0 then ['-'] else []) ++ Nat.toDigits 10 n.natAbs

def escaped (c : Char) : List Char :=
  if c = '"' then ['\\', '"']
  else if c = '\\' then ['\\', '\\']
  else if c = '\x08' then ['\\', 'b']
  else if c = '\x0c' then ['\\', 'f']
  else if c = '\n' then ['\\', 'n']
  else if c = '\r' then ['\\', 'r']
  else if c = '\t' then ['\\', 't']
  else if c.toNat < 0x20 then
    ['\\', 'u', '0', '0', Nat.digitChar (c.toNat / 16), Nat.digitChar (c.toNat % 16)]
  else [c]

def writeText (s : String) : List Char :=
  '"' :: s.toList.flatMap escaped ++ ['"']

namespace Value

mutual

def chars : Value → List Char
  | .null => ['n', 'u', 'l', 'l']
  | .bool true => ['t', 'r', 'u', 'e']
  | .bool false => ['f', 'a', 'l', 's', 'e']
  | .int n => writeInt n.val
  | .float x => writeFloat x
  | .text s => writeText s
  | .list items => '[' :: itemChars items ++ [']']
  | .object members => '{' :: memberChars members ++ ['}']

def itemChars : List Value → List Char
  | [] => []
  | [item] => item.chars
  | item :: rest => item.chars ++ ',' :: itemChars rest

def memberChars : List (String × Value) → List Char
  | [] => []
  | [(name, value)] => writeText name ++ ':' :: value.chars
  | (name, value) :: rest => writeText name ++ ':' :: value.chars ++ ',' :: memberChars rest

end

def write (v : Value) : String := String.ofList v.chars

end Value

end Localnet.Json
