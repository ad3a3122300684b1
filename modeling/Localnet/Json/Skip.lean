import Localnet.Json.Document

/-!
Passing over a value that nobody asks for. Brackets may nest to any depth, strings are not decoded
and numbers not computed, so fewer things are refused than in a value that is kept.
-/

namespace Localnet.Json

def skipExponent : Reader Unit := fun cs =>
  let digits := (exponentSign cs).2
  match digits with
  | [] => .error ⟨.invalidNumber, [], 0⟩
  | c :: rest =>
    if isDigit c then .ok ((), rest.dropWhile isDigit)
    else .error ⟨.invalidNumber, c :: rest, 1⟩

/-- Passes over the exponent if there is one. -/
def skipOptionalExponent : Reader Unit := fun cs =>
  match cs with
  | c :: rest => if c = 'e' || c = 'E' then skipExponent rest else .ok ((), c :: rest)
  | [] => .ok ((), [])

/-- Passes over a number without its sign. -/
def skipNumber : Reader Unit := fun cs =>
  match cs with
  | [] => .error ⟨.invalidNumber, [], 0⟩
  | c :: rest =>
    if !isDigit c then .error ⟨.invalidNumber, c :: rest, 1⟩
    else if c = '0' && beforeDigit rest then .error ⟨.invalidNumber, rest, 1⟩
    else
      match rest.dropWhile isDigit with
      | '.' :: rest =>
        if beforeDigit rest then skipOptionalExponent (rest.dropWhile isDigit)
        else .error ⟨.invalidNumber, rest, 1⟩
      | rest => skipOptionalExponent rest

/-- Passes over a string from behind its opening quote, in at most `fuel` steps. -/
def skipText : (fuel : Nat) → Reader Unit
  | 0, _ => .error ⟨.endInText, [], 0⟩
  | _ + 1, [] => .error ⟨.endInText, [], 0⟩
  | fuel + 1, c :: rest =>
    if c = '"' then .ok ((), rest)
    else if c = '\\' then
      match rest with
      | [] => .error ⟨.endInText, [], 0⟩
      | d :: rest =>
        if (shortEscape? d).isSome then skipText fuel rest
        else if d = 'u' then do
          let (_, rest) ← fourHex rest
          skipText fuel rest
        else .error ⟨.invalidEscape, d :: rest, 1⟩
    else if c.toNat < 0x20 then .error ⟨.controlCharacter, c :: rest, 0⟩
    else skipText fuel rest

inductive Bracket where
  | list
  | object

def Bracket.close : Bracket → Char
  | .list => ']'
  | .object => '}'

def Bracket.unclosed : Bracket → Cause
  | .list => .endInList
  | .object => .endInObject

def Bracket.unseparated : Bracket → Cause
  | .list => .expectedListEnd
  | .object => .expectedObjectEnd

inductive Stage where
  | value
  /-- The closing bracket, or what comes before the next value. -/
  | next (afterValue : Bool)

def skipKey : Reader Unit := fun cs =>
  match skipSpace cs with
  | [] => .error ⟨.endInObject, [], 0⟩
  | c :: rest =>
    if c = '"' then do
      let ((), rest) ← skipText (rest.length + 1) rest
      colon rest
    else .error ⟨.keyNotText, c :: rest, 1⟩

/-- Passes over what comes before a value inside a bracket. -/
def Bracket.lead : Bracket → Reader Unit
  | .list => fun cs => .ok ((), cs)
  | .object => skipKey

/-- Passes over the rest of a value inside its open brackets, the innermost first. -/
def skipRest : (fuel : Nat) → Stage → List Bracket → Reader Unit
  | 0, _, _ => fun cs => .error ⟨.endInValue, cs, 0⟩
  | fuel + 1, .value, brackets => fun cs =>
    match skipSpace cs with
    | [] => .error ⟨.endInValue, [], 0⟩
    | c :: rest => do
      if c = '[' then skipRest fuel (.next false) (.list :: brackets) rest
      else if c = '{' then skipRest fuel (.next false) (.object :: brackets) rest
      else
        let ((), rest) ←
          if c = 'n' then literal ['u', 'l', 'l'] rest
          else if c = 't' then literal ['r', 'u', 'e'] rest
          else if c = 'f' then literal ['a', 'l', 's', 'e'] rest
          else if c = '"' then skipText (rest.length + 1) rest
          else if c = '-' then skipNumber rest
          else if isDigit c then skipNumber (c :: rest)
          else .error ⟨.expectedValue, c :: rest, 1⟩
        skipRest fuel (.next true) brackets rest
  | _ + 1, .next _, [] => fun cs => .ok ((), cs)
  | fuel + 1, .next afterValue, bracket :: brackets => fun cs =>
    match skipSpace cs with
    | [] => .error ⟨bracket.unclosed, [], 0⟩
    | c :: rest =>
      if c = bracket.close then skipRest fuel (.next true) brackets rest
      else if afterValue then
        if c = ',' then do
          let ((), rest) ← bracket.lead rest
          skipRest fuel .value (bracket :: brackets) rest
        else .error ⟨bracket.unseparated, c :: rest, 1⟩
      else do
        let ((), rest) ← bracket.lead (c :: rest)
        skipRest fuel .value (bracket :: brackets) rest

/-- Passes over a value. Each bracket, value and separator takes one step. -/
def skip : Reader Unit := fun cs =>
  skipRest (2 * cs.length + 2) .value [] cs

end Localnet.Json
