import Localnet.Json.Fault

/-!
Readers take what they need from the front of a text and leave the rest.
-/

namespace Localnet.Json

abbrev Reader (α : Type) := StateT (List Char) (Except Fault) α

namespace Reader

/-- Fails after the last character that was read. -/
def failBefore {α : Type} (cause : Cause) : Reader α :=
  fun cs => .error ⟨cause, cs, 0⟩

end Reader

def isSpace (c : Char) : Bool :=
  c == ' ' || c == '\n' || c == '\t' || c == '\r'

def skipSpace (cs : List Char) : List Char := cs.dropWhile isSpace

/-- The rest of a literal whose first character was read. -/
def literal : List Char → Reader Unit
  | [], cs => .ok ((), cs)
  | _ :: _, [] => .error ⟨.endInValue, [], 0⟩
  | expected :: word, c :: rest =>
    if c = expected then literal word rest else .error ⟨.expectedLiteral, c :: rest, 1⟩

def colon : Reader Unit := fun cs =>
  match skipSpace cs with
  | ':' :: rest => .ok ((), rest)
  | [] => .error ⟨.endInObject, [], 0⟩
  | rest => .error ⟨.expectedColon, rest, 1⟩

/-- What may follow a document: white space, and nothing else. -/
def ended (cs : List Char) : Except Fault Unit :=
  match skipSpace cs with
  | [] => .ok ()
  | c :: rest => .error ⟨.trailingCharacters, c :: rest, 1⟩

def Reader.run? {α : Type} (read : Reader α) (text : List Char) : Except Fault α := do
  let (a, rest) ← read text
  ended rest
  return a

end Localnet.Json
