import Localnet.Base64
import Localnet.Text.Quoted
import Localnet.Text.Split

/-!
The certificate in a PEM text, which is read line by line. Sections of other kinds may come before it.
-/

namespace Localnet.Pem

/-- A text as the bytes of its UTF-8 form. -/
def utf8 (text : List Char) : List UInt8 := text.flatMap String.utf8EncodeChar

inductive CertificateFault where
  | sectionStart (line : List Char)
  | unclosed (label : List Char)
  | base64 (fault : Base64.LenientFault)

def CertificateFault.describe : CertificateFault → String
  | .sectionStart line => "illegal section start: " ++ Text.quoted line
  | .unclosed label => "section end " ++ Text.quoted label ++ " missing"
  | .base64 fault => fault.describe

def isLineEnd (c : Char) : Bool := c == '\n' || c == '\r'

def beginMark : List Char := "-----BEGIN ".toList

def endMark : List Char := "-----END ".toList

def dashes : List Char := "-----".toList

/-- The labels of sections whose contents have to be base64, wanted or not. -/
def knownLabels : List (List Char) :=
  ["CERTIFICATE", "PUBLIC KEY", "RSA PRIVATE KEY", "PRIVATE KEY", "EC PRIVATE KEY", "X509 CRL",
    "CERTIFICATE REQUEST"].map String.toList

/-- A section that is open: its label and the characters read in it. -/
structure OpenSection where
  label : List Char
  content : List Char

def opens (line : List Char) : Bool := beginMark.isPrefixOf line

/-- The end of a line that opens a section, from behind its label: dashes, spaces and line ends. -/
def trailer (line : List Char) : List Char :=
  (line.reverse.takeWhile fun c => c == '-' || c == ' ' || isLineEnd c).reverse

/-- The label in a line that opens a section. It ends in five dashes, among which blanks are passed
over. -/
def label (line : List Char) : Except CertificateFault (List Char) :=
  let tail := trailer line
  if (tail.filter (· == '-')).length = 5 then
    let fromDash := (tail.dropWhile (· != '-')).length
    .ok ((line.take (line.length - fromDash)).drop beginMark.length)
  else .error (.sectionStart line)

def closes (label line : List Char) : Bool := (endMark ++ label ++ dashes).isPrefixOf line

/-- The contents of the first section whose label is `CERTIFICATE`. -/
def certificateIn : Option OpenSection → List (List Char) →
    Except CertificateFault (Option (List UInt8))
  | none, [] => .ok none
  | some opened, [] => .error (.unclosed opened.label)
  | current, line :: rest =>
    if opens line then
      match label line with
      | .error fault => .error fault
      | .ok label => certificateIn (some ⟨label, (current.map (·.content)).getD []⟩) rest
    else
      match current with
      | none => certificateIn none rest
      | some opened =>
        if closes opened.label line then
          if opened.label ∈ knownLabels then
            match Base64.decodeLenient (utf8 opened.content) with
            | .error fault => .error (.base64 fault)
            | .ok bytes =>
              if opened.label = "CERTIFICATE".toList then .ok (some bytes)
              else certificateIn none rest
          else certificateIn none rest
        else certificateIn (some ⟨opened.label, opened.content ++ line⟩) rest

/-- The first certificate of a text, if it holds one. -/
def certificate? (text : String) : Except CertificateFault (Option (List UInt8)) :=
  certificateIn none (Text.lines isLineEnd text.toList)

end Localnet.Pem
