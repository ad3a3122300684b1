/-!
Numbers as strings of bytes, the highest byte first.
-/

namespace Localnet.Bytes

def toNat (bytes : List UInt8) : Nat :=
  bytes.foldl (fun n byte => n * 256 + byte.toNat) 0

/-- The lowest `count` bytes of a number. -/
def ofNat (count n : Nat) : List UInt8 :=
  (List.range count).reverse.map fun i => UInt8.ofNat (n >>> (8 * i))

/-- The bytes that read the other way round. -/
def toNatReversed (bytes : List UInt8) : Nat := toNat bytes.reverse

/-- Whether `part` occurs somewhere in `whole`. -/
def isInfix (part : List UInt8) : List UInt8 → Bool
  | [] => part.isEmpty
  | byte :: rest => part.isPrefixOf (byte :: rest) || isInfix part rest

@[simp] theorem length_ofNat (count n : Nat) : (ofNat count n).length = count := by
  simp [ofNat]

theorem isInfix_iff {part whole : List UInt8} : isInfix part whole = true ↔ part <:+: whole := by
  induction whole with
  | nil => simp [isInfix]
  | cons byte rest ih =>
    simp [isInfix, ih, List.infix_cons_iff]

end Localnet.Bytes
