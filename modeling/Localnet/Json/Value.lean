import Localnet.Binary64.Basic
import Localnet.Members

/-!
The values a JSON document holds. Objects list their members in the order of the names; integers of
64 bits stay integers, every other number is a binary64 float.
-/

namespace Localnet.Json

/-- An integer that is kept exactly: at least `-2 ^ 63` and below `2 ^ 64`. -/
structure Integer where
  val : Int
  bounded : -0x8000000000000000 ≤ val ∧ val < 0x10000000000000000
  deriving DecidableEq

def Integer.ofNat (n : Nat) (h : n < 0x10000000000000000) : Integer := ⟨n, by omega⟩

inductive Value where
  | null
  | bool (b : Bool)
  | int (n : Integer)
  | float (x : Binary64)
  | text (s : String)
  | list (items : List Value)
  | object (members : List (String × Value))

namespace Value

instance : Inhabited Value := ⟨.null⟩

mutual

def decEq : (v w : Value) → Decidable (v = w)
  | .null, w => match w with
    | .null => isTrue rfl
    | .bool _ | .int _ | .float _ | .text _ | .list _ | .object _ => isFalse nofun
  | .bool a, w => match w with
    | .bool b => decidable_of_iff (a = b) (by simp)
    | .null | .int _ | .float _ | .text _ | .list _ | .object _ => isFalse nofun
  | .int a, w => match w with
    | .int b => decidable_of_iff (a = b) (by simp)
    | .null | .bool _ | .float _ | .text _ | .list _ | .object _ => isFalse nofun
  | .float a, w => match w with
    | .float b => decidable_of_iff (a = b) (by simp)
    | .null | .bool _ | .int _ | .text _ | .list _ | .object _ => isFalse nofun
  | .text a, w => match w with
    | .text b => decidable_of_iff (a = b) (by simp)
    | .null | .bool _ | .int _ | .float _ | .list _ | .object _ => isFalse nofun
  | .list a, w => match w with
    | .list b => @decidable_of_iff _ (a = b) (by simp) (decEqItems a b)
    | .null | .bool _ | .int _ | .float _ | .text _ | .object _ => isFalse nofun
  | .object a, w => match w with
    | .object b => @decidable_of_iff _ (a = b) (by simp) (decEqMembers a b)
    | .null | .bool _ | .int _ | .float _ | .text _ | .list _ => isFalse nofun

def decEqItems : (v w : List Value) → Decidable (v = w)
  | [], [] => isTrue rfl
  | [], _ :: _ => isFalse nofun
  | _ :: _, [] => isFalse nofun
  | a :: v, b :: w =>
    have := decEq a b
    have := decEqItems v w
    decidable_of_iff (a = b ∧ v = w) (by simp)

def decEqMembers : (v w : List (String × Value)) → Decidable (v = w)
  | [], [] => isTrue rfl
  | [], _ :: _ => isFalse nofun
  | _ :: _, [] => isFalse nofun
  | (k, a) :: v, (l, b) :: w =>
    have := decEq a b
    have := decEqMembers v w
    decidable_of_iff (k = l ∧ a = b ∧ v = w) (by simp [and_assoc])

end

instance : DecidableEq Value := decEq

/-- The value as a natural number: integers that are not negative, and nothing else. -/
def nat? : Value → Option Nat
  | .int n => if 0 ≤ n.val then some n.val.toNat else none
  | _ => none

/-- A natural number of 64 bits as a value. -/
def ofNat (n : Nat) (h : n < 0x10000000000000000) : Value := .int (Integer.ofNat n h)

end Value

end Localnet.Json
