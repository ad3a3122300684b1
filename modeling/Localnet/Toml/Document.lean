import Localnet.Toml.Text
import Localnet.Toml.Tree

/-!
Reading a TOML document.
-/

namespace Localnet.Toml

/-- Passes over a comment up to the end of its line. -/
def skipComment : List Char → List Char
  | '#' :: rest => rest.dropWhile isPlain
  | cs => cs

def skipLayout : (fuel : Nat) → List Char → List Char
  | 0, cs => cs
  | fuel + 1, cs =>
    let cs := skipComment (skipBlanks cs)
    match newline? cs with
    | some rest => skipLayout fuel rest
    | none => cs

def layout (cs : List Char) : List Char := skipLayout (cs.length + 1) cs

/-- Items with commas between them and perhaps one at the end, up to the closing bracket. -/
def listItems (item : Reader Value) : (fuel : Nat) → Reader (List Value)
  | 0, _ => none
  | fuel + 1, cs =>
    match layout cs with
    | ']' :: rest => some ([], rest)
    | cs => do
      let (first, rest) ← item cs
      match layout rest with
      | ',' :: rest =>
        let (others, rest) ← listItems item fuel rest
        return (first :: others, rest)
      | ']' :: rest => return ([first], rest)
      | _ => none

def pair (item : Reader Value) : Reader Pair := fun cs => do
  let (path, rest) ← key cs
  match skipBlanks rest with
  | '=' :: rest =>
    let (v, rest) ← item (skipBlanks rest)
    return (⟨path.dropLast, path.getLast?.getD "", v⟩, skipBlanks rest)
  | _ => none

/-- Pairs with commas between them up to the closing brace, at least one. -/
def tablePairs (item : Reader Value) : (fuel : Nat) → Reader (List Pair)
  | 0, _ => none
  | fuel + 1, cs => do
    let (first, rest) ← pair item cs
    match rest with
    | ',' :: rest =>
      let (others, rest) ← tablePairs item fuel rest
      return (first :: others, rest)
    | '}' :: rest => return ([first], rest)
    | _ => none

def inlineTable (item : Reader Value) : Reader Value := fun cs => do
  let (pairs, rest) ←
    match skipBlanks cs with
    | '}' :: rest => some ([], rest)
    | cs => tablePairs item (cs.length + 1) cs
  let items ← assignAll pairs []
  return (.table (itemValues items), rest)

/-- A value whose parts, if it has any, are read by `inner`. -/
def valueWith (inner : Option (Reader Value)) : Reader Value
  | '[' :: rest => do
    let (items, rest) ← listItems (← inner) (rest.length + 1) rest
    return (.list items, rest)
  | '{' :: rest => do inlineTable (← inner) rest
  | '"' :: rest => (text.map .text) ('"' :: rest)
  | '\x27' :: rest => (text.map .text) ('\x27' :: rest)
  | cs => scalar cs

/-- A value with at most `depth` brackets inside one another. -/
def value : (depth : Nat) → Reader Value
  | 0 => valueWith none
  | depth + 1 => valueWith (some (value depth))

/-- The end of a line, where a comment may stand. -/
def lineEnd : Reader Unit := fun cs =>
  match skipComment (skipBlanks cs) with
  | [] => some ((), [])
  | cs => (newline? cs).map ((), ·)

/-- A header from behind its first bracket. -/
def header : Reader Section
  | '[' :: rest => do
    let (path, rest) ← key rest
    let ((), rest) ← mark [']', ']'] rest
    return (⟨path.dropLast, path.getLast?.getD "", true, []⟩, rest)
  | cs => do
    let (path, rest) ← key cs
    let ((), rest) ← mark [']'] rest
    return (⟨path.dropLast, path.getLast?.getD "", false, []⟩, rest)

/-- The pairs up to the next header, in at most `fuel` steps. -/
def pairLines : (fuel : Nat) → Reader (List Pair)
  | 0, _ => none
  | fuel + 1, cs =>
    match layout cs with
    | [] => some ([], [])
    | '[' :: rest => some ([], '[' :: rest)
    | cs => do
      let (first, rest) ← pair (value depthLimit) cs
      let ((), rest) ← lineEnd rest
      let (others, rest) ← pairLines fuel rest
      return (first :: others, rest)

/-- The sections up to the end, in at most `fuel` steps. -/
def sections : (fuel : Nat) → List Char → Option (List Section)
  | 0, _ => none
  | fuel + 1, cs =>
    match layout cs with
    | [] => some []
    | '[' :: rest => do
      let (s, rest) ← header rest
      let ((), rest) ← lineEnd rest
      let (pairs, rest) ← pairLines (rest.length + 1) rest
      let others ← sections fuel rest
      return { s with pairs } :: others
    | _ => none

/-- A text without the mark that may stand before it. -/
def withoutMark : List Char → List Char
  | '\uFEFF' :: rest => rest
  | cs => cs

def parse (text : String) : Option Value := do
  let cs := withoutMark text.toList
  let (pairs, rest) ← pairLines (cs.length + 1) cs
  let root ← assignAll pairs []
  let items ← (← sections (rest.length + 1) rest).foldlM (fun items s => s.addTo items) root
  return .table (itemValues items)

end Localnet.Toml
