import Localnet.Text.Shapeless

/-!
Text shown between quotes, for messages that point at a piece of input.
-/

namespace Localnet.Text

/-- A code point in braces: `\u{7f}`. -/
def codePointEscape (c : Char) : List Char :=
  "\\u\x7b".toList ++ Nat.toDigits 16 c.toNat ++ ['}']

/-- A character inside quotes made of `delimiter`. -/
def quotedChar (delimiter c : Char) : List Char :=
  if c == delimiter || c == '\\' then ['\\', c]
  else if c == '\x00' then ['\\', '0']
  else if c == '\t' then ['\\', 't']
  else if c == '\n' then ['\\', 'n']
  else if c == '\r' then ['\\', 'r']
  else if isShapeless c then codePointEscape c
  else [c]

def quoted (text : List Char) : String :=
  String.ofList ('"' :: text.flatMap (quotedChar '"') ++ ['"'])

def quotedSingle (c : Char) : String :=
  String.ofList ('\x27' :: quotedChar '\x27' c ++ ['\x27'])

end Localnet.Text
