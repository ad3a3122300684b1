import Localnet.Json.Reader

/-!
Strings of a JSON text, from behind the opening quote to behind the closing one.
-/

namespace Localnet.Json

def hexDigit? (c : Char) : Option Nat :=
  if '0' ≤ c ∧ c ≤ '9' then some (c.toNat - '0'.toNat)
  else if 'a' ≤ c ∧ c ≤ 'f' then some (c.toNat - 'a'.toNat + 10)
  else if 'A' ≤ c ∧ c ≤ 'F' then some (c.toNat - 'A'.toNat + 10)
  else none

/-- Four hexadecimal digits. Where four bytes are left that are none, all four count as read. -/
def fourHex : Reader Nat
  | cs@(a :: b :: c :: d :: rest) =>
    match hexDigit? a, hexDigit? b, hexDigit? c, hexDigit? d with
    | some a, some b, some c, some d => .ok (((a * 16 + b) * 16 + c) * 16 + d, rest)
    | _, _, _, _ => .error ⟨.invalidEscape, cs, 4⟩
  | cs => if utf8Size cs < 4 then .error ⟨.endInText, [], 0⟩ else .error ⟨.invalidEscape, cs, 4⟩

def isLeading (unit : Nat) : Bool := 0xD800 ≤ unit && unit < 0xDC00

def isTrailing (unit : Nat) : Bool := 0xDC00 ≤ unit && unit < 0xE000

def pairMark (expected : Char) : Reader Unit
  | [] => .error ⟨.endInText, [], 0⟩
  | c :: rest =>
    if c = expected then .ok ((), rest) else .error ⟨.unfinishedSurrogatePair, c :: rest, 1⟩

def surrogatePair (leading trailing : Nat) : Char :=
  Char.ofNat (0x10000 + (leading - 0xD800) * 0x400 + (trailing - 0xDC00))

/-- A character given by its code, from behind the `u`. -/
def codeEscape : Reader Char := do
  let unit ← fourHex
  if isTrailing unit then Reader.failBefore .loneSurrogate
  else if isLeading unit then
    pairMark '\\'
    pairMark 'u'
    let second ← fourHex
    if isTrailing second then return surrogatePair unit second
    else Reader.failBefore .loneSurrogate
  else return Char.ofNat unit

/-- The character that a letter stands for behind a backslash. -/
def shortEscape? (c : Char) : Option Char :=
  if c = '"' || c = '\\' || c = '/' then some c
  else if c = 'b' then some '\x08'
  else if c = 'f' then some '\x0c'
  else if c = 'n' then some '\n'
  else if c = 'r' then some '\r'
  else if c = 't' then some '\t'
  else none

def escape : Reader Char
  | [] => .error ⟨.endInText, [], 0⟩
  | c :: rest =>
    match shortEscape? c with
    | some d => .ok (d, rest)
    | none => if c = 'u' then codeEscape rest else .error ⟨.invalidEscape, c :: rest, 1⟩

/-- The characters up to the closing quote, in at most `fuel` steps of one each. -/
def textChars : (fuel : Nat) → Reader (List Char)
  | 0, _ => .error ⟨.endInText, [], 0⟩
  | _ + 1, [] => .error ⟨.endInText, [], 0⟩
  | fuel + 1, c :: rest =>
    if c = '"' then .ok ([], rest)
    else if c = '\\' then do
      let (d, rest) ← escape rest
      let (text, rest) ← textChars fuel rest
      return (d :: text, rest)
    else if c.toNat < 0x20 then .error ⟨.controlCharacter, c :: rest, 1⟩
    else do
      let (text, rest) ← textChars fuel rest
      return (c :: text, rest)

def textBody : Reader String := fun cs =>
  match textChars cs.length cs with
  | .ok (text, rest) => .ok (String.ofList text, rest)
  | .error fault => .error fault

end Localnet.Json
