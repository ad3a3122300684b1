import Localnet.Json.Skip
import Localnet.Table

/-!
Documents with known members. A record is written as an object, with its fields in any order and
members of other names passed over, or as a list of its fields in their own order.
-/

namespace Localnet.Json

/-- Fails at a value of the wrong kind. A value that is no bracket is read to its end. -/
def mistyped {α : Type} (expected : String) : Reader α := fun cs =>
  match skipSpace cs with
  | [] => .error ⟨.expectedValue, [], 1⟩
  | c :: rest =>
    if c = '[' then .error ⟨.mistyped .list expected, c :: rest, 0⟩
    else if c = '{' then .error ⟨.mistyped .object expected, c :: rest, 0⟩
    else do
      let (found, rest) ←
        if c = 'n' then ((literal ['u', 'l', 'l']).map fun _ => Found.null) rest
        else if c = 't' then ((literal ['r', 'u', 'e']).map fun _ => .bool true) rest
        else if c = 'f' then ((literal ['a', 'l', 's', 'e']).map fun _ => .bool false) rest
        else if c = '"' then (textBody.map .text) rest
        else if c = '-' then ((unsigned true).map Number.found) rest
        else if isDigit c then ((unsigned false).map Number.found) (c :: rest)
        else .error ⟨.expectedValue, c :: rest, 1⟩
      .error ⟨.mistyped found expected, rest, 0⟩

/-- Reads a value by its first character, which `select` may refuse. -/
def byFirst {α : Type} (select : Char → Option (Reader α)) (expected : String) : Reader α := fun cs =>
  match skipSpace cs with
  | [] => .error ⟨.endInValue, [], 0⟩
  | c :: rest =>
    match select c with
    | some reader => reader rest
    | none => mistyped expected (c :: rest)

def text : Reader String :=
  byFirst (fun c => if c = '"' then some textBody else none) "a string"

def bool : Reader Bool :=
  byFirst (fun c =>
    if c = 't' then some ((literal ['r', 'u', 'e']).map fun _ => true)
    else if c = 'f' then some ((literal ['a', 'l', 's', 'e']).map fun _ => false)
    else none) "a boolean"

/-- Nothing for `null`, else what the reader gives. -/
def optional {α : Type} (reader : Reader α) : Reader (Option α) := fun cs =>
  match skipSpace cs with
  | c :: rest =>
    if c = 'n' then ((literal ['u', 'l', 'l']).map fun _ => none) rest
    else (reader.map some) (c :: rest)
  | [] => (reader.map some) []

/-- Opens a bracket if the depth allows one more. -/
def nested {α : Type} (depth : Nat) (inner : Nat → Reader α) : Reader α := fun cs =>
  match depth, cs with
  | 0, cs => .error ⟨.tooDeep, cs, 1⟩
  | depth + 1, cs => inner depth cs.tail

/-- Reads a value by its opening bracket, which is still unread for `list` and `object`. -/
def byBracket {α : Type} (list object : Option (Reader α)) (expected : String) : Reader α := fun cs =>
  match skipSpace cs with
  | [] => .error ⟨.endInValue, [], 0⟩
  | c :: rest =>
    match if c = '[' then list else if c = '{' then object else none with
    | some reader => reader (c :: rest)
    | none => mistyped expected (c :: rest)

def list {α : Type} (item : Nat → Reader α) (depth : Nat) : Reader (List α) :=
  byBracket (some (nested depth fun depth => listOf (item depth))) none "a sequence"

/-- An object of values; the last of a repeated name counts. -/
def table (depth : Nat) : Reader (Table Value) :=
  byBracket none
    (some (nested depth fun depth => (objectOf (value depth)).map Table.ofList)) "a map"

/-- A field of a record: its name, and how a value that is read is put into the record. -/
structure Field (σ : Type) where
  name : String
  read : Reader (σ → σ)

def Field.of {σ α : Type} (name : String) (reader : Reader α) (put : α → σ → σ) : Field σ :=
  ⟨name, reader.map put⟩

/-- Fails where a repeated key ends, after the closing bracket if that comes next. -/
def repeated {α : Type} (name : String) : Reader α := fun cs =>
  match skipSpace cs with
  | '}' :: rest => .error ⟨.duplicateField name, rest, 0⟩
  | rest => .error ⟨.duplicateField name, rest, 0⟩

/-- The fields of a record in an object, in at most `fuel` steps. -/
def fieldMembers {σ : Type} (fields : List (Field σ)) :
    (fuel : Nat) → (seen : List String) → (first : Bool) → σ → Reader σ
  | 0, _, _, _ => fun cs => .error ⟨.endInObject, cs, 0⟩
  | fuel + 1, seen, first, record => fun cs => do
    let (step, rest) ← objectStep first cs
    match step with
    | .finished => return (record, rest)
    | .item =>
      let (name, rest) ← textBody rest
      match fields.find? (·.name = name) with
      | some field =>
        if name ∈ seen then repeated name rest
        else
          let ((), rest) ← colon rest
          let (put, rest) ← field.read rest
          fieldMembers fields fuel (name :: seen) false (put record) rest
      | none =>
        let ((), rest) ← colon rest
        let ((), rest) ← skip rest
        fieldMembers fields fuel seen false record rest

/-- The fields of a record in a list. Fields that are missing at the end keep their defaults. -/
def fieldItems {σ : Type} : List (Field σ) → (first : Bool) → σ → Reader σ
  | [], _, record => fun cs => .ok (record, cs)
  | field :: fields, first, record => fun cs => do
    let (step, rest) ← listStep first cs
    match step with
    | .finished => return (record, rest)
    | .item =>
      let (put, rest) ← field.read rest
      fieldItems fields false (put record) rest

def recordObject {σ : Type} (fields : List (Field σ)) (defaults : σ) : Reader σ := fun cs => do
  let (record, rest) ← fieldMembers fields (cs.length + 1) [] true defaults cs
  let ((), rest) ← objectEnd rest
  return (record, rest)

def recordList {σ : Type} (fields : List (Field σ)) (defaults : σ) : Reader σ := fun cs => do
  let (record, rest) ← fieldItems fields true defaults cs
  let ((), rest) ← listEnd rest
  return (record, rest)

/-- A record; its fields are read one bracket further in. -/
def record {σ : Type} (expected : String) (fields : Nat → List (Field σ)) (defaults : σ)
    (depth : Nat) : Reader σ :=
  byBracket (some (nested depth fun depth => recordList (fields depth) defaults))
    (some (nested depth fun depth => recordObject (fields depth) defaults)) expected

end Localnet.Json
