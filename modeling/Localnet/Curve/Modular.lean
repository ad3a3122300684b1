/-!
Arithmetic modulo a prime, and repeated addition by doubling.
-/

namespace Localnet.Curve

/-- `n` times `x`, where `add` adds and `zero` adds nothing. -/
def times {α : Type} (add : α → α → α) (zero : α) (n : Nat) (x : α) : α :=
  if h : n = 0 then zero
  else
    let half := times add zero (n / 2) (add x x)
    if n % 2 = 1 then add half x else half
termination_by n
decreasing_by exact Nat.div_lt_self (Nat.pos_of_ne_zero h) (by decide)

/-- `x ^ n` modulo `m`. -/
def powMod (m n x : Nat) : Nat :=
  times (fun a b => a * b % m) (1 % m) n x

/-- The inverse of `x` modulo a prime, by Fermat's little theorem. -/
def inverse (p x : Nat) : Nat := powMod p (p - 2) (x % p)

/-- `x - y` modulo `m`, for `y` up to `m`. -/
def subMod (m x y : Nat) : Nat := (x + (m - y)) % m

end Localnet.Curve
