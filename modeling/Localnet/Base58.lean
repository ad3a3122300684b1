import Localnet.Bytes
import Localnet.Text.Quoted

/-!
Base58: bytes as a number written with the 58 letters and digits that are hard to confuse. Each
leading zero byte is written as a leading `1`.
-/

namespace Localnet.Base58

def alphabet : List Char :=
  "123456789ABCDEFGHJKLMNPQRSTUVWXYZabcdefghijkmnopqrstuvwxyz".toList

/-- The digits of a number in a base from two up, the lowest first. -/
def digits (base n : Nat) : List Nat :=
  if _h : n = 0 ∨ base < 2 then [] else n % base :: digits base (n / base)
termination_by n
decreasing_by exact Nat.div_lt_self (by omega) (by omega)

/-- The number with these digits, the lowest first. -/
def ofDigits (base : Nat) : List Nat → Nat
  | [] => 0
  | digit :: rest => digit + base * ofDigits base rest

def isZero (byte : UInt8) : Bool := byte == 0

def letter (digit : Nat) : Char := alphabet[digit]?.getD '1'

def encode (bytes : List UInt8) : String :=
  String.ofList <|
    (bytes.takeWhile isZero).map (fun _ => '1') ++
      ((digits 58 (Bytes.toNat bytes)).map letter).reverse

inductive Fault where
  | invalid (c : Char) (index : Nat)
  | nonAscii (index : Nat)
  deriving DecidableEq

def Fault.describe : Fault → String
  | .invalid c i =>
    s!"provided string contained invalid character {Text.quotedSingle c} at byte {i}"
  | .nonAscii i => s!"provided string contained non-ascii character starting at byte {i}"

def digit? (c : Char) : Option Nat := alphabet.idxOf? c

/-- The digits of a text that starts at an index, up to the first character that is none. -/
def textDigits (index : Nat) : List Char → Except Fault (List Nat)
  | [] => .ok []
  | c :: rest =>
    match digit? c with
    | some digit => (textDigits (index + 1) rest).map (digit :: ·)
    | none => .error (if c.toNat < 0x80 then .invalid c index else .nonAscii index)

def decode (text : String) : Except Fault (List UInt8) := do
  let digits ← textDigits 0 text.toList
  let zeros := (digits.takeWhile (· == 0)).map fun _ => 0
  return zeros ++ ((Base58.digits 256 (ofDigits 58 digits.reverse)).map UInt8.ofNat).reverse

end Localnet.Base58
