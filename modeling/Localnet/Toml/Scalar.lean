import Localnet.Json.Number
import Localnet.Json.Text
import Localnet.Toml.Value

/-!
Numbers, dates and times of a TOML document.
-/

namespace Localnet.Toml

/-- Takes what it needs from the front of a text, or fails. -/
abbrev Reader (α : Type) := StateT (List Char) Option α

def isDigit (c : Char) : Bool := Json.isDigit c

def number (digits : List Char) : Nat :=
  digits.foldl (fun n c => n * 10 + Json.digitValue c) 0

def moreDigits (accept : Char → Bool) : List Char → List Char × List Char
  | '_' :: c :: rest =>
    if accept c then
      let (digits, rest) := moreDigits accept rest
      (c :: digits, rest)
    else ([], '_' :: c :: rest)
  | c :: rest =>
    if accept c then
      let (digits, rest) := moreDigits accept rest
      (c :: digits, rest)
    else ([], c :: rest)
  | [] => ([], [])

def digits (accept : Char → Bool) : Reader (List Char)
  | c :: rest =>
    if accept c then
      let (others, rest) := moreDigits accept rest
      some (c :: others, rest)
    else none
  | [] => none

/-- Digits that start with zero only if that is all. -/
def plainDigits : Reader (List Char)
  | '0' :: rest => some (['0'], rest)
  | cs => digits isDigit cs

/-- Whether there is a minus sign; a plus sign may stand in its place. -/
def sign : Reader Bool
  | '-' :: rest => some (true, rest)
  | '+' :: rest => some (false, rest)
  | cs => some (false, cs)

def oneOf (accept : List Char) : Reader Char
  | c :: rest => if c ∈ accept then some (c, rest) else none
  | [] => none

def mark (expected : List Char) : Reader Unit := fun cs =>
  if expected.isPrefixOf cs then some ((), cs.drop expected.length) else none

def optional {α : Type} (read : Reader α) : Reader (Option α) := fun cs =>
  match read cs with
  | some (a, rest) => some (some a, rest)
  | none => some (none, cs)

/-! ### Integers -/

def integerOf? (negative : Bool) (n : Nat) : Option Json.Integer :=
  if h : n < 0x8000000000000000 ∨ (negative ∧ n ≤ 0x8000000000000000) then
    some ⟨if negative then -n else n, by split <;> omega⟩
  else none

def decimalInteger : Reader Json.Integer := do
  let negative ← sign
  let ds ← plainDigits
  integerOf? negative (number ds)

def basedInteger (letter : Char) (base : Nat) : Reader Json.Integer := do
  mark ['0', letter]
  let ds ← digits fun c => (Json.hexDigit? c).any (· < base)
  integerOf? false (ds.foldl (fun n c => n * base + (Json.hexDigit? c).getD 0) 0)

def integer : Reader Json.Integer :=
  basedInteger 'x' 16 <|> basedInteger 'o' 8 <|> basedInteger 'b' 2 <|> decimalInteger

/-! ### Floats -/

/-- The float nearest to `digits * 10 ^ exponent`. Far outside the range of the floats only the size
counts. -/
def nearest (negative : Bool) (digits : Nat) (exponent : Int) : Binary64 :=
  let leading := exponent + (Nat.toDigits 10 digits).length
  if digits = 0 ∨ leading < -400 then .ofRatio negative 0 1
  else if 400 < leading then if negative then Binary64.infinity.neg else .infinity
  else .ofRatio negative (digits * Binary64.pow10 exponent) (Binary64.pow10 (-exponent))

def exponentPart : Reader Int := do
  let _ ← oneOf ['e', 'E']
  let negative ← sign
  let n := number (← digits isDigit)
  return if negative then -n else n

def fractionPart : Reader (List Char) := do
  mark ['.']
  digits isDigit

/-- A decimal with a fraction, an exponent or both. A positive one has to be finite. -/
def decimalFloat : Reader Binary64 := do
  let negative ← sign
  let whole ← plainDigits
  let fraction ← optional fractionPart
  let exponent ← optional exponentPart
  guard (fraction.isSome ∨ exponent.isSome)
  let places := fraction.getD []
  let x := nearest negative (number (whole ++ places)) (exponent.getD 0 - places.length)
  guard (x ≠ .infinity)
  return x

def specialFloat : Reader Binary64 := do
  let negative ← sign
  let x ← (mark "inf".toList *> pure Binary64.infinity) <|> (mark "nan".toList *> pure Binary64.nan)
  return if negative then x.neg else x

def float : Reader Binary64 := decimalFloat <|> specialFloat

/-! ### Dates and times -/

/-- Exactly `count` digits. -/
def fixedDigits (count : Nat) : Reader (List Char) := fun cs =>
  let ds := cs.take count
  if ds.length = count ∧ ds.all isDigit then some (ds, cs.drop count) else none

/-- Exactly `count` digits that give a number between two bounds. -/
def bounded (count low high : Nat) : Reader (List Char) := do
  let ds ← fixedDigits count
  guard (low ≤ number ds ∧ number ds ≤ high)
  return ds

def isLeap (year : Nat) : Bool := year % 4 == 0 && (year % 100 != 0 || year % 400 == 0)

def daysIn (year month : Nat) : Nat :=
  if month = 2 then if isLeap year then 29 else 28
  else if month ∈ [4, 6, 9, 11] then 30 else 31

def date : Reader (List Char) := do
  let year ← fixedDigits 4
  mark ['-']
  let month ← bounded 2 1 12
  mark ['-']
  let day ← bounded 2 1 (daysIn (number year) (number month))
  return year ++ '-' :: month ++ '-' :: day

/-- The digits behind the point of a second: nine of them count, and none that are zeros at the end. -/
def secondFraction : Reader (List Char) := do
  mark ['.']
  let ds : List Char ← fun cs => some (cs.takeWhile isDigit, cs.dropWhile isDigit)
  guard (ds ≠ [])
  let kept := ((ds.take 9).reverse.dropWhile (· == '0')).reverse
  return if kept = [] then [] else '.' :: kept

def time : Reader (List Char) := do
  let hour ← bounded 2 0 23
  mark [':']
  let minute ← bounded 2 0 59
  mark [':']
  let second ← bounded 2 0 60
  let fraction ← optional secondFraction
  return hour ++ ':' :: minute ++ ':' :: second ++ fraction.getD []

/-- An offset from universal time. An offset of nothing has a plus sign. -/
def offset : Reader (List Char) :=
  (do let _ ← oneOf ['Z', 'z']; return ['Z']) <|> do
    let s ← oneOf ['+', '-']
    let hour ← bounded 2 0 23
    mark [':']
    let minute ← bounded 2 0 59
    let s := if number hour = 0 ∧ number minute = 0 then '+' else s
    return s :: hour ++ ':' :: minute

def dateTime : Reader (List Char) := do
  let day ← date
  let rest ← optional do
    let _ ← oneOf ['T', 't', ' ']
    let clock ← time
    let zone ← optional offset
    return 'T' :: clock ++ zone.getD []
  return day ++ rest.getD []

/-- A value that starts with a digit or a sign, or a word. -/
def scalar : Reader Value :=
  (do return .datetime (String.ofList (← dateTime <|> time))) <|>
  (do return .float (← float)) <|>
  (do return .int (← integer)) <|>
  (do mark "true".toList; return .bool true) <|>
  (do mark "false".toList; return .bool false)

end Localnet.Toml
