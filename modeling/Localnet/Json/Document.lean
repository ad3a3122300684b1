import Localnet.Json.Number
import Localnet.Json.Text

/-!
Reading a JSON document. Brackets nest to a fixed depth; an object keeps the last value of a name.
-/

namespace Localnet.Json

/-- How many brackets may be open at once. -/
def depthLimit : Nat := 127

/-- What has to come after the items read so far: an item, or the end. -/
inductive Step where
  | item
  | finished

/-- Looks for the next item of a list. The closing bracket stays unread. -/
def listStep (first : Bool) : Reader Step := fun cs =>
  match skipSpace cs with
  | [] => .error ⟨.endInList, [], 0⟩
  | c :: rest =>
    if c = ']' then .ok (.finished, c :: rest)
    else if first then .ok (.item, c :: rest)
    else if c = ',' then
      match skipSpace rest with
      | ']' :: rest => .error ⟨.trailingComma, ']' :: rest, 1⟩
      | rest => .ok (.item, rest)
    else .error ⟨.expectedListEnd, c :: rest, 1⟩

/-- Looks for the next key of an object and its opening quote. The closing bracket stays unread. -/
def objectStep (first : Bool) : Reader Step := fun cs =>
  match skipSpace cs with
  | [] => .error ⟨.endInObject, [], 0⟩
  | c :: rest =>
    if c = '}' then .ok (.finished, c :: rest)
    else if first then
      if c = '"' then .ok (.item, rest) else .error ⟨.keyNotText, c :: rest, 1⟩
    else if c = ',' then
      match skipSpace rest with
      | [] => .error ⟨.endInValue, [], 0⟩
      | d :: rest =>
        if d = '"' then .ok (.item, rest)
        else if d = '}' then .error ⟨.trailingComma, d :: rest, 1⟩
        else .error ⟨.keyNotText, d :: rest, 1⟩
    else .error ⟨.expectedObjectEnd, c :: rest, 1⟩

/-- The items of a list up to its closing bracket, in at most `fuel` steps. -/
def items {α : Type} (item : Reader α) : (fuel : Nat) → (first : Bool) → Reader (List α)
  | 0, _, cs => .error ⟨.endInList, cs, 0⟩
  | fuel + 1, first, cs => do
    let (step, rest) ← listStep first cs
    match step with
    | .finished => return ([], rest)
    | .item =>
      let (value, rest) ← item rest
      let (others, rest) ← items item fuel false rest
      return (value :: others, rest)

/-- The members of an object up to its closing bracket, in at most `fuel` steps. -/
def members {α : Type} (value : Reader α) :
    (fuel : Nat) → (first : Bool) → Reader (List (String × α))
  | 0, _, cs => .error ⟨.endInObject, cs, 0⟩
  | fuel + 1, first, cs => do
    let (step, rest) ← objectStep first cs
    match step with
    | .finished => return ([], rest)
    | .item =>
      let (name, rest) ← textBody rest
      let ((), rest) ← colon rest
      let (content, rest) ← value rest
      let (others, rest) ← members value fuel false rest
      return ((name, content) :: others, rest)

def listEnd : Reader Unit := fun cs =>
  match skipSpace cs with
  | [] => .error ⟨.endInList, [], 0⟩
  | c :: rest =>
    if c = ']' then .ok ((), rest)
    else if c = ',' then
      match skipSpace rest with
      | ']' :: rest => .error ⟨.trailingComma, ']' :: rest, 1⟩
      | rest => .error ⟨.trailingCharacters, rest, 1⟩
    else .error ⟨.trailingCharacters, c :: rest, 1⟩

def objectEnd : Reader Unit := fun cs =>
  match skipSpace cs with
  | [] => .error ⟨.endInObject, [], 0⟩
  | c :: rest =>
    if c = '}' then .ok ((), rest)
    else if c = ',' then .error ⟨.trailingComma, c :: rest, 1⟩
    else .error ⟨.trailingCharacters, c :: rest, 1⟩

def listOf {α : Type} (item : Reader α) : Reader (List α) := fun cs => do
  let (values, rest) ← items item (cs.length + 1) true cs
  let ((), rest) ← listEnd rest
  return (values, rest)

def objectOf {α : Type} (value : Reader α) : Reader (List (String × α)) := fun cs => do
  let (entries, rest) ← members value (cs.length + 1) true cs
  let ((), rest) ← objectEnd rest
  return (entries, rest)

/-- A value that is no list and no object, or one whose parts are read by `inner`. -/
def valueWith (inner : Option (Reader Value)) : Reader Value := fun cs =>
  match skipSpace cs with
  | [] => .error ⟨.endInValue, [], 0⟩
  | c :: rest =>
    if c = 'n' then ((literal ['u', 'l', 'l']).map fun _ => .null) rest
    else if c = 't' then ((literal ['r', 'u', 'e']).map fun _ => .bool true) rest
    else if c = 'f' then ((literal ['a', 'l', 's', 'e']).map fun _ => .bool false) rest
    else if c = '"' then (textBody.map .text) rest
    else if c = '-' then ((unsigned true).map Number.value) rest
    else if isDigit c then ((unsigned false).map Number.value) (c :: rest)
    else if c = '[' then
      match inner with
      | none => .error ⟨.tooDeep, c :: rest, 1⟩
      | some item => ((listOf item).map .list) rest
    else if c = '{' then
      match inner with
      | none => .error ⟨.tooDeep, c :: rest, 1⟩
      | some item => ((objectOf item).map fun entries => .object (Members.ofList entries)) rest
    else .error ⟨.expectedValue, c :: rest, 1⟩

/-- A value with at most `depth` brackets inside one another. -/
def value : (depth : Nat) → Reader Value
  | 0 => valueWith none
  | depth + 1 => valueWith (some (value depth))

def read {α : Type} (reader : Reader α) (text : String) : Except Error α :=
  (reader.run? text.toList).mapError (·.locate text.toList)

def Value.parse (text : String) : Except Error Value :=
  read (value depthLimit) text

end Localnet.Json
