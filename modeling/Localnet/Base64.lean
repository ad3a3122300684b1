import Localnet.Bytes

/-!
Base64: three bytes as four symbols of six bits each.
-/

namespace Localnet.Base64

def padding : UInt8 := '='.toUInt8

/-- The six bits of a symbol. -/
def symbol? (byte : UInt8) : Option Nat :=
  let c := Char.ofUInt8 byte
  if 'A' ≤ c ∧ c ≤ 'Z' then some (c.toNat - 'A'.toNat)
  else if 'a' ≤ c ∧ c ≤ 'z' then some (c.toNat - 'a'.toNat + 26)
  else if '0' ≤ c ∧ c ≤ '9' then some (c.toNat - '0'.toNat + 52)
  else if c = '+' then some 62
  else if c = '/' then some 63
  else none

/-- The bytes that a run of symbols holds. Bits left over at its end are dropped. -/
def bytes : List Nat → List UInt8
  | a :: b :: c :: d :: rest => Bytes.ofNat 3 (((a * 64 + b) * 64 + c) * 64 + d) ++ bytes rest
  | [a, b, c] => Bytes.ofNat 2 (((a * 64 + b) * 64 + c) / 4)
  | [a, b] => Bytes.ofNat 1 ((a * 64 + b) / 16)
  | [_] => []
  | [] => []

/-- The symbol of six bits. -/
def symbol (bits : Nat) : Char :=
  if bits < 26 then Char.ofNat ('A'.toNat + bits)
  else if bits < 52 then Char.ofNat ('a'.toNat + (bits - 26))
  else if bits < 62 then Char.ofNat ('0'.toNat + (bits - 52))
  else if bits = 62 then '+'
  else '/'

/-- The symbols of some bytes, with padding up to a multiple of four. -/
def encode : List UInt8 → List Char
  | a :: b :: c :: rest =>
    let n := Bytes.toNat [a, b, c]
    symbol (n >>> 18) :: symbol (n >>> 12 % 64) :: symbol (n >>> 6 % 64) ::
      symbol (n % 64) :: encode rest
  | [a, b] =>
    let n := Bytes.toNat [a, b] * 4
    [symbol (n >>> 12), symbol (n >>> 6 % 64), symbol (n % 64), '=']
  | [a] =>
    let n := a.toNat * 16
    [symbol (n >>> 6), symbol (n % 64), '=', '=']
  | [] => []

/-! ### The strict reading: full padding, no bits left over -/

inductive Fault where
  | symbol (byte : UInt8) (index : Nat)
  | length (count : Nat)
  | lastSymbol (byte : UInt8) (index : Nat)
  | padding
  deriving DecidableEq

def Fault.describe : Fault → String
  | .symbol byte index => s!"Invalid symbol {byte.toNat}, offset {index}."
  | .length count => s!"Invalid input length: {count}"
  | .lastSymbol byte index => s!"Invalid last symbol {byte.toNat}, offset {index}."
  | .padding => "Invalid padding"

/-- The symbols of bytes that start at an index. -/
def symbols (index : Nat) : List UInt8 → Except Fault (List Nat)
  | [] => .ok []
  | byte :: rest =>
    match symbol? byte with
    | some bits => (symbols (index + 1) rest).map (bits :: ·)
    | none => .error (.symbol byte index)

/-- The bits of the last symbol that no byte takes. -/
def leftover : List Nat → Nat
  | [_, b] => b % 16
  | [_, _, c] => c % 4
  | _ => 0

/-- The symbols of the last four bytes or less, which may end in padding. -/
def lastSymbols (index : Nat) (last : List UInt8) : Except Fault (List Nat) := do
  let data := last.takeWhile (· ≠ padding)
  let tail := last.dropWhile (· ≠ padding)
  let bits ← symbols index data
  if tail.any (· ≠ padding) ∨ (tail ≠ [] ∧ data.length < 2) then
    throw (.symbol padding (index + data.length))
  else return bits

def decode (text : List UInt8) : Except Fault (List UInt8) := do
  if let some byte := text.getLast? then
    if text.length % 4 = 1 ∧ byte ≠ padding ∧ (symbol? byte).isNone then
      throw (.symbol byte (text.length - 1))
  let start := (text.length - 1) / 4 * 4
  let first ← symbols 0 (text.take start)
  let last ← lastSymbols start (text.drop start)
  if text ≠ [] ∧ last.length < 2 then throw (.length (start + last.length))
  if text.length % 4 ≠ 0 then throw .padding
  if leftover last ≠ 0 then
    throw (.lastSymbol (text.getD (start + last.length - 1) 0) (start + last.length - 1))
  return bytes (first ++ last)

/-! ### The lenient reading: white space anywhere, padding optional, bits left over ignored -/

inductive LenientFault where
  | symbol (byte : UInt8)
  | earlyPadding
  | trailingPadding
  deriving DecidableEq

def LenientFault.describe : LenientFault → String
  | .symbol byte => s!"InvalidCharacter({byte.toNat})"
  | .earlyPadding => "PrematurePadding"
  | .trailingPadding => "InvalidTrailingPadding"

def isBlank (byte : UInt8) : Bool := (9 ≤ byte && byte ≤ 13) || byte == 32

def lenientSymbol (byte : UInt8) : Except LenientFault (Option Nat) :=
  if byte = padding then .ok none
  else match symbol? byte with
    | some bits => .ok (some bits)
    | none => .error (.symbol byte)

/-- The last symbols, four at the most: two or more, and padding up to four or none at all. -/
def lenientLast : List (Option Nat) → Except LenientFault (List Nat)
  | [] => .ok []
  | [some a, some b, some c, some d] => .ok [a, b, c, d]
  | [some a, some b, some c, none] | [some a, some b, some c] => .ok [a, b, c]
  | [some a, some b, none, none] | [some a, some b] => .ok [a, b]
  | _ => .error .trailingPadding

/-- The symbols in blocks of eight, of which only the last may hold padding, and that only among its
last four. -/
def lenientBlocks : (bytesLeft : List UInt8) → (block : List (Option Nat)) →
    Except LenientFault (List Nat)
  | [], block =>
    if 4 < block.length then
      match (block.take 4).mapM id with
      | some bits => (lenientLast (block.drop 4)).map (bits ++ ·)
      | none => .error .earlyPadding
    else lenientLast block
  | byte :: rest, block => do
    let symbol ← lenientSymbol byte
    if block.length = 8 then
      match block.mapM id with
      | some bits => return bits ++ (← lenientBlocks rest [symbol])
      | none => throw .earlyPadding
    else lenientBlocks rest (block ++ [symbol])

def decodeLenient (text : List UInt8) : Except LenientFault (List UInt8) :=
  (lenientBlocks (text.filter (!isBlank ·)) []).map bytes

end Localnet.Base64
