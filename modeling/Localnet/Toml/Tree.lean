import Localnet.Members
import Localnet.Toml.Value

/-!
Tables under construction. A table remembers whether a header or a pair defined it, which decides what
may still be put into it.
-/

namespace Localnet.Toml

inductive Item where
  | value (v : Value)
  /-- An implicit table was only passed through on the way to another one; a dotted one was passed
  through by the key of a pair. -/
  | table (implicit dotted : Bool) (members : List (String × Item))
  /-- Tables under one name, the latest last. -/
  | tables (items : List (List (String × Item)))

abbrev Items := List (String × Item)

/-- Changes the last of a list. -/
def updateLast {α : Type} (f : α → Option α) : List α → Option (List α)
  | [] => none
  | [a] => (f a).map ([·])
  | a :: rest => (updateLast f rest).map (a :: ·)

/-- Puts a value under a path of keys. On the way lie tables that pairs defined, or that pairs may
still define; `open_` tells whether the table reached takes a pair. -/
def assign (key : String) (v : Value) : (path : List String) → (open_ : Bool) → Items → Option Items
  | [], open_, items =>
    if open_ ∧ (Members.find? key items).isNone then some (Members.insert key (.value v) items)
    else none
  | step :: path, _, items => do
    let item ←
      match Members.find? step items with
      | none => (assign key v path true []).map (.table true true)
      | some (.table implicit dotted inner) =>
        if implicit then (assign key v path dotted inner).map (.table implicit dotted) else none
      | some (.tables tables) => (updateLast (assign key v path false) tables).map .tables
      | some (.value _) => none
    return Members.insert step item items

/-- Changes the table under a path of keys of a header. -/
def update (f : Items → Option Items) : (path : List String) → Items → Option Items
  | [], items => f items
  | step :: path, items => do
    let item ←
      match Members.find? step items with
      | none => (update f path []).map (.table true false)
      | some (.table implicit dotted inner) =>
        (update f path inner).map (.table implicit dotted)
      | some (.tables tables) => (updateLast (update f path) tables).map .tables
      | some (.value _) => none
    return Members.insert step item items

/-- A path of keys, its last key and a value. -/
structure Pair where
  path : List String
  key : String
  value : Value

def assignAll (pairs : List Pair) (items : Items) : Option Items :=
  pairs.foldlM (fun items pair => assign pair.key pair.value pair.path true items) items

structure Section where
  path : List String
  key : String
  repeated : Bool
  pairs : List Pair

/-- Puts the table of a section under its key: a new one, or the one that was only passed through. -/
def Section.place (s : Section) (items : Items) : Option Items := do
  let item ←
    if s.repeated then
      let table ← assignAll s.pairs []
      match Members.find? s.key items with
      | none => some (.tables [table])
      | some (.tables tables) => some (.tables (tables ++ [table]))
      | some _ => none
    else
      match Members.find? s.key items with
      | none => (assignAll s.pairs []).map (.table false false)
      | some (.table true false inner) => (assignAll s.pairs inner).map (.table false false)
      | some _ => none
  return Members.insert s.key item items

def Section.addTo (s : Section) (items : Items) : Option Items := update s.place s.path items

mutual

def Item.toValue : Item → Value
  | .value v => v
  | .table _ _ members => .table (itemValues members)
  | .tables tables => .list (tableValues tables)

def itemValues : Items → List (String × Value)
  | [] => []
  | (name, item) :: rest => (name, item.toValue) :: itemValues rest

def tableValues : List Items → List Value
  | [] => []
  | table :: rest => .table (itemValues table) :: tableValues rest

end

end Localnet.Toml
