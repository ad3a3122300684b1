import Localnet.Json.Value

/-!
The values a TOML document holds.
-/

namespace Localnet.Toml

inductive Value where
  | text (s : String)
  | int (n : Json.Integer)
  | float (x : Binary64)
  | bool (b : Bool)
  /-- A date, a time or both, in their normal form. -/
  | datetime (s : String)
  | list (items : List Value)
  | table (members : List (String × Value))

namespace Value

instance : Inhabited Value := ⟨.bool false⟩

mutual

def decEq : (v w : Value) → Decidable (v = w)
  | .text a, w => match w with
    | .text b => decidable_of_iff (a = b) (by simp)
    | .int _ | .float _ | .bool _ | .datetime _ | .list _ | .table _ => isFalse nofun
  | .int a, w => match w with
    | .int b => decidable_of_iff (a = b) (by simp)
    | .text _ | .float _ | .bool _ | .datetime _ | .list _ | .table _ => isFalse nofun
  | .float a, w => match w with
    | .float b => decidable_of_iff (a = b) (by simp)
    | .text _ | .int _ | .bool _ | .datetime _ | .list _ | .table _ => isFalse nofun
  | .bool a, w => match w with
    | .bool b => decidable_of_iff (a = b) (by simp)
    | .text _ | .int _ | .float _ | .datetime _ | .list _ | .table _ => isFalse nofun
  | .datetime a, w => match w with
    | .datetime b => decidable_of_iff (a = b) (by simp)
    | .text _ | .int _ | .float _ | .bool _ | .list _ | .table _ => isFalse nofun
  | .list a, w => match w with
    | .list b => @decidable_of_iff _ (a = b) (by simp) (decEqItems a b)
    | .text _ | .int _ | .float _ | .bool _ | .datetime _ | .table _ => isFalse nofun
  | .table a, w => match w with
    | .table b => @decidable_of_iff _ (a = b) (by simp) (decEqMembers a b)
    | .text _ | .int _ | .float _ | .bool _ | .datetime _ | .list _ => isFalse nofun

def decEqItems : (v w : List Value) → Decidable (v = w)
  | [], [] => isTrue rfl
  | [], _ :: _ => isFalse nofun
  | _ :: _, [] => isFalse nofun
  | a :: v, b :: w =>
    have := decEq a b
    have := decEqItems v w
    decidable_of_iff (a = b ∧ v = w) (by simp)

def decEqMembers : (v w : List (String × Value)) → Decidable (v = w)
  | [], [] => isTrue rfl
  | [], _ :: _ => isFalse nofun
  | _ :: _, [] => isFalse nofun
  | (k, a) :: v, (l, b) :: w =>
    have := decEq a b
    have := decEqMembers v w
    decidable_of_iff (k = l ∧ a = b ∧ v = w) (by simp [and_assoc])

end

instance : DecidableEq Value := decEq

/-- The key of the object that stands for a date or time in JSON. -/
def datetimeField : String := "$__toml_private_datetime"

mutual

/-- The value in JSON, where floats that are no numbers are null. -/
def toJson : Value → Json.Value
  | .text s => .text s
  | .int n => .int n
  | .float x => if x.isFinite then .float x else .null
  | .bool b => .bool b
  | .datetime s => .object [(datetimeField, .text s)]
  | .list items => .list (toJsonItems items)
  | .table members => .object (Members.ofList (toJsonMembers members))

def toJsonItems : List Value → List Json.Value
  | [] => []
  | item :: rest => item.toJson :: toJsonItems rest

def toJsonMembers : List (String × Value) → List (String × Json.Value)
  | [] => []
  | (name, value) :: rest => (name, value.toJson) :: toJsonMembers rest

end

end Value

end Localnet.Toml
