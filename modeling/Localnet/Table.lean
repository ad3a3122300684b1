import Localnet.Members

/-!
Tables: values kept under names, in the order of the names.
-/

namespace Localnet

structure Table (α : Type) where
  entries : List (String × α)
  ordered : Members.Ordered entries

namespace Table

variable {α : Type}

@[ext] theorem ext {t u : Table α} (h : t.entries = u.entries) : t = u := by
  cases t; cases u; simpa using h

instance [DecidableEq α] : DecidableEq (Table α) := fun t u =>
  decidable_of_iff (t.entries = u.entries) ⟨ext, congrArg entries⟩

def empty : Table α := ⟨[], List.Pairwise.nil⟩

instance : EmptyCollection (Table α) := ⟨empty⟩
instance : Inhabited (Table α) := ⟨empty⟩

def get? (t : Table α) (name : String) : Option α := Members.find? name t.entries

def contains (t : Table α) (name : String) : Bool := (t.get? name).isSome

def insert (t : Table α) (name : String) (value : α) : Table α :=
  ⟨Members.insert name value t.entries, t.ordered.insert name value⟩

def erase (t : Table α) (name : String) : Table α :=
  ⟨Members.erase name t.entries, t.ordered.erase name⟩

def ofList (entries : List (String × α)) : Table α :=
  ⟨Members.ofList entries, Members.ordered_ofList entries⟩

def names (t : Table α) : List String := t.entries.map (·.1)

def values (t : Table α) : List α := t.entries.map (·.2)

/-- All of both; where both have a name, the second one's value. -/
def merge (t u : Table α) : Table α :=
  u.entries.foldl (fun acc entry => acc.insert entry.1 entry.2) t

/-- Puts a value under a name that is free; a name that is taken keeps its value. -/
def insertIfNew (t : Table α) (name : String) (value : α) : Table α :=
  if t.contains name then t else t.insert name value

@[simp] theorem get?_empty (name : String) : (empty : Table α).get? name = none := rfl

@[simp] theorem get?_insert_self (t : Table α) (name : String) (value : α) :
    (t.insert name value).get? name = some value :=
  Members.find?_insert_self name value t.entries

theorem get?_insert_of_ne (t : Table α) {name other : String} (value : α) (h : name ≠ other) :
    (t.insert name value).get? other = t.get? other :=
  Members.find?_insert_of_ne value t.entries h

theorem get?_insert (t : Table α) (name other : String) (value : α) :
    (t.insert name value).get? other = if name = other then some value else t.get? other := by
  split
  next h => simp [h]
  next h => exact t.get?_insert_of_ne value h

end Table

end Localnet
