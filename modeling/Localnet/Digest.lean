import Localnet.Bytes

/-!
The SHA-2 digests of 256 and 512 bits.
-/

namespace Localnet.Digest

/-- The greatest number below `2 ^ bits` whose power `degree` is at most `n`. -/
def root (degree n : Nat) : (bits : Nat) → (found : Nat) → Nat
  | 0, found => found
  | bit + 1, found =>
    let next := found + (1 <<< bit)
    root degree n bit (if Nat.pow next degree ≤ n then next else found)

def isPrime (n : Nat) : Bool :=
  2 ≤ n && (List.range n).all fun d => d < 2 || n % d != 0

/-- The first `count` primes, of which the eightieth is 409. -/
def primes (count : Nat) : List Nat :=
  ((List.range 410).filter isPrime).take count

/-- The first `w` bits behind the point of the root of a prime. -/
def rootFraction (w degree p : Nat) : BitVec w :=
  BitVec.ofNat w (root degree (p <<< (degree * w)) (w + 5) 0)

/-- What tells the digests of the family apart: the width of their words, the number of rounds and
the distances of the rotations and shifts. -/
structure Variant where
  width : Nat
  rounds : Nat
  sum0 : Nat × Nat × Nat
  sum1 : Nat × Nat × Nat
  mix0 : Nat × Nat × Nat
  mix1 : Nat × Nat × Nat

def sha256 : Variant := ⟨32, 64, (2, 13, 22), (6, 11, 25), (7, 18, 3), (17, 19, 10)⟩

def sha512 : Variant := ⟨64, 80, (28, 34, 39), (14, 18, 41), (1, 8, 7), (19, 61, 6)⟩

namespace Variant

variable (v : Variant)

abbrev Word : Type := BitVec v.width

def sum (r : Nat × Nat × Nat) (x : v.Word) : v.Word :=
  x.rotateRight r.1 ^^^ x.rotateRight r.2.1 ^^^ x.rotateRight r.2.2

def mix (r : Nat × Nat × Nat) (x : v.Word) : v.Word :=
  x.rotateRight r.1 ^^^ x.rotateRight r.2.1 ^^^ (x >>> r.2.2)

structure State where
  a : v.Word
  b : v.Word
  c : v.Word
  d : v.Word
  e : v.Word
  f : v.Word
  g : v.Word
  h : v.Word

def State.words {v : Variant} (s : v.State) : List v.Word :=
  [s.a, s.b, s.c, s.d, s.e, s.f, s.g, s.h]

def State.add {v : Variant} (s t : v.State) : v.State :=
  ⟨s.a + t.a, s.b + t.b, s.c + t.c, s.d + t.d, s.e + t.e, s.f + t.f, s.g + t.g, s.h + t.h⟩

/-- The state before the first block, from the square roots of the first eight primes. -/
def initial : v.State :=
  let word := rootFraction v.width 2
  ⟨word 2, word 3, word 5, word 7, word 11, word 13, word 17, word 19⟩

/-- The constants of the rounds, from the cube roots of as many primes. -/
def constants : List v.Word :=
  (primes v.rounds).map (rootFraction v.width 3)

def State.round {v : Variant} (s : v.State) (constant word : v.Word) : v.State :=
  let choice := (s.e &&& s.f) ^^^ (~~~s.e &&& s.g)
  let majority := (s.a &&& s.b) ^^^ (s.a &&& s.c) ^^^ (s.b &&& s.c)
  let t1 := s.h + v.sum v.sum1 s.e + choice + constant + word
  let t2 := v.sum v.sum0 s.a + majority
  ⟨t1 + t2, s.a, s.b, s.c, s.d + t1, s.e, s.f, s.g⟩

abbrev Window : Type := Vector v.Word 16

/-- Drops the first word and computes the one sixteen rounds after it. -/
def Window.shift {v : Variant} (window : v.Window) : v.Window :=
  let word := v.mix v.mix1 window[14] + window[9] + v.mix v.mix0 window[1] + window[0]
  Vector.ofFn fun i => if h : i.val + 1 < 16 then window[i.val + 1] else word

def State.run {v : Variant} : List v.Word → v.Window → v.State → v.State
  | [], _, s => s
  | constant :: constants, window, s =>
    run constants (Window.shift window) (s.round constant window[0])

/-- The number of bytes in a word. -/
def wordBytes : Nat := v.width / 8

def window (block : List UInt8) : v.Window :=
  Vector.ofFn fun i =>
    BitVec.ofNat v.width (Bytes.toNat ((block.drop (i * v.wordBytes)).take v.wordBytes))

/-- The message with a one bit, zeros and its length in bits, in whole blocks. -/
def padded (message : List UInt8) : List UInt8 :=
  let block := 16 * v.wordBytes
  let tail := 1 + 2 * v.wordBytes
  let zeros := (block - (message.length + tail) % block) % block
  message ++ 0x80 :: List.replicate zeros 0 ++ Bytes.ofNat (2 * v.wordBytes) (8 * message.length)

def blocks (message : List UInt8) : List (List UInt8) :=
  let size := 16 * v.wordBytes
  (List.range (message.length / size)).map fun i => (message.drop (i * size)).take size

def digest (message : List UInt8) : List UInt8 :=
  let constants := v.constants
  let final := (v.blocks (v.padded message)).foldl
    (fun s block => s.add (s.run constants (v.window block))) v.initial
  final.words.flatMap fun word => Bytes.ofNat v.wordBytes word.toNat

theorem length_digest (message : List UInt8) : (v.digest message).length = 8 * v.wordBytes := by
  simp [digest, State.words]
  omega

end Variant

end Localnet.Digest
