import Localnet.Pem.Certificate
import Localnet.Text.Blank

/-!
The first section of a PEM text, wherever in the text it starts and whatever its label. Lines in front
of an empty line are headers.
-/

namespace Localnet.Pem

inductive SectionFault where
  | framing
  | noBeginLabel
  | noEndLabel
  | labels (opening closing : List Char)
  | base64 (fault : Base64.Fault)
  | header (line : List Char)

def SectionFault.describe : SectionFault → String
  | .framing => "malformedframing"
  | .noBeginLabel => "missing BEGIN tag"
  | .noEndLabel => "missing END tag"
  | .labels opening closing =>
    s!"mismatching BEGIN (\"{String.ofList opening}\") and END (\"{String.ofList closing}\") tags"
  | .base64 fault => "invalid data: " ++ fault.describe
  | .header line => "invalid header: " ++ String.ofList line

structure Parts where
  opening : List Char
  body : List Char
  closing : List Char

def isSpace (c : Char) : Bool := c == ' ' || c == '\t' || isLineEnd c

def parts? (text : List Char) : Option Parts := do
  let (_, text) ← Text.cut? beginMark text
  let (opening, text) ← Text.cut? dashes text
  let (body, text) ← Text.cut? endMark (text.dropWhile isSpace)
  let (closing, _) ← Text.cut? dashes text
  return ⟨opening, body, closing⟩

def splitBody (body : List Char) : List Char × List Char :=
  ((Text.cut? ['\n', '\n'] body).or (Text.cut? ['\r', '\n', '\r', '\n'] body)).getD ([], body)

/-- A line without its end. -/
def chomp (line : List Char) : List Char :=
  match line.reverse with
  | '\n' :: '\r' :: rest => rest.reverse
  | '\n' :: rest => rest.reverse
  | _ => line

/-- A header has a name, and a colon behind it. -/
def isHeader (line : List Char) : Bool :=
  match Text.cut? [':'] line with
  | some (name, _) => !name.isEmpty
  | none => false

/-- The bytes that the first section of a text holds. -/
def sectionBytes (text : String) : Except SectionFault (List UInt8) := do
  let some parts := parts? text.toList | throw .framing
  if parts.opening = [] then throw .noBeginLabel
  if parts.closing = [] then throw .noEndLabel
  if parts.opening ≠ parts.closing then throw (.labels parts.opening parts.closing)
  let (headers, data) := splitBody parts.body
  let bytes ← (Base64.decode (utf8 (data.filter (!Text.isBlank ·)))).mapError .base64
  match ((Text.lines (· == '\n') headers).map chomp).find? (!isHeader ·) with
  | some line => throw (.header line)
  | none => return bytes

end Localnet.Pem
