import Localnet.Base64
import Localnet.Pem.Certificate

/-!
Sections as they are written: lines of 64 symbols between two marks.
-/

namespace Localnet.Pem

/-- Cuts a text into lines of `width` characters, in at most `fuel` lines. -/
def wrapped (width : Nat) : (fuel : Nat) → List Char → List Char
  | 0, text => text
  | fuel + 1, text =>
    if text = [] then []
    else text.take width ++ '\n' :: wrapped width fuel (text.drop width)

/-- The section with a label that holds some bytes. -/
def armor (label : String) (bytes : List UInt8) : String :=
  let text := Base64.encode bytes
  String.ofList <|
    beginMark ++ label.toList ++ dashes ++ '\n' :: wrapped 64 text.length text ++
    endMark ++ label.toList ++ dashes ++ ['\n']

end Localnet.Pem
