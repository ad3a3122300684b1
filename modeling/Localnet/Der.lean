import Localnet.Bytes

/-!
Elements of the DER encoding: a tag, a length and the contents.
-/

namespace Localnet.Der

abbrev Tag := UInt8

def integer : Tag := 0x02
def bitString : Tag := 0x03
def octetString : Tag := 0x04
def sequence : Tag := 0x30
def set : Tag := 0x31
def utf8Text : Tag := 0x0C
def utcTime : Tag := 0x17
def generalTime : Tag := 0x18

/-- The tag of an element that is known by its place, for one that holds other elements. -/
def context (n : UInt8) : Tag := 0xA0 + n

def primitiveContext (n : UInt8) : Tag := 0x80 + n

/-- The shortest form of a length of at most two bytes. -/
def length? : List UInt8 → Option (Nat × List UInt8)
  | 0x81 :: n :: rest => if 0x80 ≤ n then some (n.toNat, rest) else none
  | 0x82 :: hi :: lo :: rest =>
    if 0 < hi then some (hi.toNat * 256 + lo.toNat, rest) else none
  | n :: rest => if n < 0x80 then some (n.toNat, rest) else none
  | [] => none

/-- The contents of the next element, which has to have this tag, and what follows it. -/
def expect? (tag : Tag) : List UInt8 → Option (List UInt8 × List UInt8)
  | [] => none
  | found :: rest =>
    if found = tag then
      match length? rest with
      | some (n, rest) => if n ≤ rest.length then some (rest.take n, rest.drop n) else none
      | none => none
    else none

def only? (tag : Tag) (bytes : List UInt8) : Option (List UInt8) :=
  match expect? tag bytes with
  | some (content, []) => some content
  | _ => none

/-- The contents of an element that may be missing. -/
def optional? (tag : Tag) (bytes : List UInt8) : Option (Option (List UInt8) × List UInt8) :=
  if bytes.head? = some tag then
    (expect? tag bytes).map fun (content, rest) => (some content, rest)
  else some (none, bytes)

/-- The digits of a number that is not negative, without a leading zero unless it is zero. -/
def natural? (bytes : List UInt8) : Option (List UInt8 × List UInt8) :=
  match expect? integer bytes with
  | some ([0], rest) => some ([0], rest)
  | some (0 :: digit :: digits, rest) =>
    if 0x80 ≤ digit then some (digit :: digits, rest) else none
  | some (digit :: digits, rest) => if digit < 0x80 then some (digit :: digits, rest) else none
  | _ => none

/-- A string of whole bytes as bits. -/
def wholeBits? : List UInt8 → Option (List UInt8)
  | 0 :: bytes => some bytes
  | _ => none

/-! ### Writing -/

def length (n : Nat) : List UInt8 :=
  if n < 0x80 then [UInt8.ofNat n]
  else if n < 0x100 then 0x81 :: Bytes.ofNat 1 n
  else 0x82 :: Bytes.ofNat 2 n

def element (tag : Tag) (content : List UInt8) : List UInt8 :=
  tag :: length content.length ++ content

/-- A number by its digits without a leading zero. -/
def natural (digits : List UInt8) : List UInt8 :=
  element integer (if digits.head?.any (0x80 ≤ ·) then 0 :: digits else digits)

def bits (bytes : List UInt8) : List UInt8 := element bitString (0 :: bytes)

end Localnet.Der
