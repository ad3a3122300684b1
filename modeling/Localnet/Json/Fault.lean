import Localnet.Binary64.Shortest
import Localnet.Json.Writer
import Localnet.Text.Quoted

/-!
Why a JSON text cannot be read, and where. A fault holds the unread rest of the text; its line and
column are counted from the whole text once it is known.
-/

namespace Localnet.Json

/-- What a reader met in place of what it asked for. -/
inductive Found where
  | null
  | bool (b : Bool)
  | int (n : Int)
  | float (x : Binary64)
  | text (s : String)
  | list
  | object

def Found.describe : Found → String
  | .null => "null"
  | .bool b => "boolean `" ++ (if b then "true" else "false") ++ "`"
  | .int n => "integer `" ++ String.ofList (writeInt n) ++ "`"
  | .float x => "floating point `" ++ String.ofList (writeFloat x) ++ "`"
  | .text s => "string " ++ Text.quoted s.toList
  | .list => "sequence"
  | .object => "map"

inductive Cause where
  | endInValue
  | endInList
  | endInObject
  | endInText
  | expectedValue
  | expectedLiteral
  | expectedColon
  | expectedListEnd
  | expectedObjectEnd
  | trailingComma
  | keyNotText
  | invalidNumber
  | numberOutOfRange
  | controlCharacter
  | invalidEscape
  | unfinishedSurrogatePair
  | loneSurrogate
  | trailingCharacters
  | tooDeep
  | mistyped (found : Found) (expected : String)
  | missingField (name : String)
  | duplicateField (name : String)

def Cause.describe : Cause → String
  | .endInValue => "EOF while parsing a value"
  | .endInList => "EOF while parsing a list"
  | .endInObject => "EOF while parsing an object"
  | .endInText => "EOF while parsing a string"
  | .expectedValue => "expected value"
  | .expectedLiteral => "expected ident"
  | .expectedColon => "expected `:`"
  | .expectedListEnd => "expected `,` or `]`"
  | .expectedObjectEnd => "expected `,` or `\x7d`"
  | .trailingComma => "trailing comma"
  | .keyNotText => "key must be a string"
  | .invalidNumber => "invalid number"
  | .numberOutOfRange => "number out of range"
  | .controlCharacter => "control character (\\u0000-\\u001F) found while parsing a string"
  | .invalidEscape => "invalid escape"
  | .unfinishedSurrogatePair => "unexpected end of hex escape"
  | .loneSurrogate => "lone leading surrogate in hex escape"
  | .trailingCharacters => "trailing characters"
  | .tooDeep => "recursion limit exceeded"
  | .mistyped found expected => "invalid type: " ++ found.describe ++ ", expected " ++ expected
  | .missingField name => "missing field `" ++ name ++ "`"
  | .duplicateField name => "duplicate field `" ++ name ++ "`"

/-- A cause, the text that was left, and how many of its bytes count as read. -/
structure Fault where
  cause : Cause
  rest : List Char
  ahead : Nat

/-- Lines count from one; the column is the number of bytes read of the line. -/
structure Position where
  line : Nat
  column : Nat
  deriving DecidableEq

def Position.start : Position := ⟨1, 0⟩

/-- The position `bytes` bytes further on, or at the end of the text. -/
def Position.advance (position : Position) : Nat → List Char → Position
  | 0, _ => position
  | _, [] => position
  | bytes + 1, c :: rest =>
    if c = '\n' then Position.advance ⟨position.line + 1, 0⟩ bytes rest
    else if c.utf8Size ≤ bytes + 1 then
      Position.advance ⟨position.line, position.column + c.utf8Size⟩ (bytes + 1 - c.utf8Size) rest
    else ⟨position.line, position.column + (bytes + 1)⟩

/-- The number of bytes of a text in UTF-8. -/
def utf8Size (text : List Char) : Nat := text.foldl (fun size c => size + c.utf8Size) 0

/-- Where a fault lies in the text that was read. -/
def Fault.position (fault : Fault) (text : List Char) : Position :=
  Position.start.advance (utf8Size text - utf8Size fault.rest + fault.ahead) text

structure Error where
  cause : Cause
  position : Position

def Error.message (e : Error) : String :=
  e.cause.describe ++ s!" at line {e.position.line} column {e.position.column}"

def Fault.locate (fault : Fault) (text : List Char) : Error :=
  ⟨fault.cause, fault.position text⟩

end Localnet.Json
