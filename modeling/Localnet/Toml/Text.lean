import Localnet.Toml.Scalar

/-!
Strings and keys of a TOML document.
-/

namespace Localnet.Toml

def isBlank (c : Char) : Bool := c == ' ' || c == '\t'

def skipBlanks (cs : List Char) : List Char := cs.dropWhile isBlank

/-- Characters that stand for themselves: no controls except the tab. -/
def isPlain (c : Char) : Bool := c == '\t' || (0x20 ≤ c.toNat && c.toNat != 0x7F)

/-- A line end, if there is one. -/
def newline? : List Char → Option (List Char)
  | '\n' :: rest => some rest
  | '\r' :: '\n' :: rest => some rest
  | _ => none

/-- A text behind its first line end, if it starts with one. -/
def afterNewline (cs : List Char) : List Char := (newline? cs).getD cs

def codePoint (count : Nat) : Reader Char := fun cs =>
  let ds := (cs.take count).filterMap Json.hexDigit?
  let n := ds.foldl (fun n d => n * 16 + d) 0
  if ds.length = count ∧ n.isValidChar then some (Char.ofNat n, cs.drop count) else none

def escape : Reader Char
  | 'b' :: rest => some ('\x08', rest)
  | 't' :: rest => some ('\t', rest)
  | 'n' :: rest => some ('\n', rest)
  | 'f' :: rest => some ('\x0c', rest)
  | 'r' :: rest => some ('\r', rest)
  | '"' :: rest => some ('"', rest)
  | '\\' :: rest => some ('\\', rest)
  | 'u' :: rest => codePoint 4 rest
  | 'U' :: rest => codePoint 8 rest
  | _ => none

def skipLines : (fuel : Nat) → List Char → List Char
  | 0, cs => cs
  | fuel + 1, cs =>
    match newline? (skipBlanks cs) with
    | some rest => skipLines fuel rest
    | none => skipBlanks cs

/-- A line end that a backslash takes away, with the blanks and lines behind it. -/
def joinedLine? (cs : List Char) : Option (List Char) :=
  (newline? (skipBlanks cs)).map fun rest => skipLines rest.length rest

/-- How a string is delimited and what a backslash means in it. -/
structure Style where
  delimiter : Char
  escapes : Bool
  /-- Whether it has three delimiters and may hold line ends. -/
  long : Bool

/-- The characters of a string up to its end, in at most `fuel` steps. The end of a long string takes
the last three of up to five delimiters in a row. -/
def content (style : Style) : (fuel : Nat) → Reader (List Char)
  | 0, _ => none
  | _ + 1, [] => none
  | fuel + 1, c :: rest =>
    if c = style.delimiter then
      if style.long then
        let run := ((c :: rest).takeWhile (· == c)).length
        if run < 3 then do
          let (text, rest) ← content style fuel ((c :: rest).drop run)
          return (List.replicate run c ++ text, rest)
        else if run < 6 then some (List.replicate (run - 3) c, (c :: rest).drop run)
        else none
      else some ([], rest)
    else if c = '\\' && style.escapes then
      match if style.long then joinedLine? rest else none with
      | some rest => content style fuel rest
      | none => do
        let (d, rest) ← escape rest
        let (text, rest) ← content style fuel rest
        return (d :: text, rest)
    else if isPlain c then do
      let (text, rest) ← content style fuel rest
      return (c :: text, rest)
    else if style.long then do
      let rest ← newline? (c :: rest)
      let (text, rest) ← content style fuel rest
      return ('\n' :: text, rest)
    else none

def delimited (style : Style) : Reader String := fun cs => do
  let cs := if style.long then afterNewline cs else cs
  let (text, rest) ← content style (cs.length + 1) cs
  return (String.ofList text, rest)

def shortText : Reader String
  | '"' :: rest => delimited ⟨'"', true, false⟩ rest
  | '\x27' :: rest => delimited ⟨'\x27', false, false⟩ rest
  | _ => none

def text : Reader String
  | '"' :: '"' :: '"' :: rest => delimited ⟨'"', true, true⟩ rest
  | '\x27' :: '\x27' :: '\x27' :: rest => delimited ⟨'\x27', false, true⟩ rest
  | cs => shortText cs

/-! ### Keys -/

def isBare (c : Char) : Bool :=
  ('a' ≤ c && c ≤ 'z') || ('A' ≤ c && c ≤ 'Z') || isDigit c || c == '-' || c == '_'

def bareKey : Reader String := fun cs =>
  let name := cs.takeWhile isBare
  if name = [] then none else some (String.ofList name, cs.dropWhile isBare)

def simpleKey : Reader String := shortText <|> bareKey

/-- Keys with points between them, in at most `fuel` steps. -/
def keyPath : (fuel : Nat) → Reader (List String)
  | 0, _ => none
  | fuel + 1, cs => do
    let (key, rest) ← simpleKey (skipBlanks cs)
    match skipBlanks rest with
    | '.' :: rest =>
      let (others, rest) ← keyPath fuel rest
      return (key :: others, rest)
    | rest => return ([key], rest)

/-- How many keys a path may have, and one more than how many brackets may be open. -/
def depthLimit : Nat := 79

def key : Reader (List String) := fun cs => do
  let (path, rest) ← keyPath (cs.length + 1) cs
  guard (path.length ≤ depthLimit)
  return (path, rest)

end Localnet.Toml
