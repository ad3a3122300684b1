import Localnet.Binary64.Basic
import Mathlib.Algebra.Order.Ring.Nat
import Mathlib.Tactic.Ring

/-!
# Rounding that stays finite

A ratio below a power of two is rounded to a number below the next one, and to a finite number as long as
the power is far enough from the end of the exponent field.
-/

namespace Localnet.Binary64

/-! ### Powers of two -/

theorem pow2_eq (n : Int) : pow2 n = 2 ^ n.toNat := Nat.one_shiftLeft _

theorem pow2_pos (n : Int) : 0 < pow2 n := by
  rw [pow2_eq]
  exact Nat.two_pow_pos _

/-- A bound on a ratio by one power of two is a bound by every greater one. -/
theorem lt_of_exponents {num den p q p' q' : Nat} (hlt : num * 2 ^ q < den * 2 ^ p)
    (h : p + q' ≤ p' + q) : num * 2 ^ q' < den * 2 ^ p' := by
  refine Nat.lt_of_mul_lt_mul_right (a := 2 ^ q) ?_
  calc num * 2 ^ q' * 2 ^ q
      = num * 2 ^ q * 2 ^ q' := by ring
    _ < den * 2 ^ p * 2 ^ q' := Nat.mul_lt_mul_of_pos_right hlt (Nat.two_pow_pos _)
    _ = den * 2 ^ (p + q') := by rw [Nat.mul_assoc, ← Nat.pow_add]
    _ ≤ den * 2 ^ (p' + q) := Nat.mul_le_mul_left _ (Nat.pow_le_pow_right Nat.two_pos h)
    _ = den * 2 ^ p' * 2 ^ q := by rw [Nat.mul_assoc, ← Nat.pow_add]

variable {num den : Nat}

theorem lt_binade_succ (num : Nat) (hden : den ≠ 0) :
    num * pow2 (-(binade num den + 1)) < den * pow2 (binade num den + 1) := by
  have hupper : num * 2 ^ den.log2 < den * 2 ^ (num.log2 + 1) :=
    calc num * 2 ^ den.log2
        ≤ num * den := Nat.mul_le_mul_left _ (Nat.log2_self_le hden)
      _ = den * num := Nat.mul_comm _ _
      _ < den * 2 ^ (num.log2 + 1) :=
          Nat.mul_lt_mul_of_pos_left Nat.lt_log2_self (Nat.pos_of_ne_zero hden)
  simp only [pow2_eq] at *
  unfold binade
  simp only [pow2_eq]
  split
  · exact lt_of_exponents hupper (by omega)
  next h => exact lt_of_exponents (Nat.not_le.mp h) (by omega)

theorem binade_lower (den : Nat) (hnum : num ≠ 0) :
    den * pow2 (binade num den) ≤ num * pow2 (-binade num den) := by
  have hlower : den * 2 ^ num.log2 < num * 2 ^ (den.log2 + 1) :=
    calc den * 2 ^ num.log2
        ≤ den * num := Nat.mul_le_mul_left _ (Nat.log2_self_le hnum)
      _ = num * den := Nat.mul_comm _ _
      _ < num * 2 ^ (den.log2 + 1) :=
          Nat.mul_lt_mul_of_pos_left Nat.lt_log2_self (Nat.pos_of_ne_zero hnum)
  unfold binade
  simp only [pow2_eq]
  split
  next h => exact h
  · exact (lt_of_exponents hlower (by omega)).le

theorem binade_le {b : Nat} (hnum : num ≠ 0) (h : num < 2 ^ (b + 1) * den) : binade num den ≤ b := by
  by_contra hgreat
  have hlower := binade_lower den hnum
  have hneg : (-binade num den).toNat = 0 := by omega
  have hpow : 2 ^ (b + 1) ≤ 2 ^ (binade num den).toNat := Nat.pow_le_pow_right Nat.two_pos (by omega)
  rw [pow2_eq, pow2_eq, hneg, Nat.pow_zero, Nat.mul_one] at hlower
  rw [Nat.mul_comm] at hlower
  have hupper := Nat.lt_of_lt_of_le h (Nat.mul_le_mul_right den hpow)
  omega

/-! ### Rounded ratios -/

theorem roundDiv_le {k : Nat} (h : num < k * den) : roundDiv num den ≤ k := by
  have hquotient : num / den < k := Nat.div_lt_of_lt_mul (Nat.mul_comm k den ▸ h)
  unfold roundDiv
  dsimp only
  split <;> omega

/-- A ratio below `2 ^ (b + 1)` is rounded to one whose exponent field is not far above that of `2 ^ b`. -/
theorem magnitudeBits_le_of_lt {b : Nat} (h : num < 2 ^ (b + 1) * den) :
    magnitudeBits num den ≤ (b + 1024) * fractionLimit := by
  unfold magnitudeBits
  split
  · exact Nat.zero_le _
  next hnum =>
    have hden : den ≠ 0 := by
      rintro rfl
      omega
    have hbinade := binade_le hnum h
    have hupper := lt_binade_succ num hden
    simp only [pow2_eq] at hupper ⊢
    generalize hscale : max (binade num den - 52) (-1074) = scale
    have hsignificand : roundDiv (num * 2 ^ (-scale).toNat) (den * 2 ^ scale.toNat) ≤ 2 ^ 53 := by
      refine roundDiv_le ?_
      have hlt : num * 2 ^ (-scale).toNat < den * 2 ^ (scale.toNat + 53) :=
        lt_of_exponents hupper (by omega)
      rwa [Nat.pow_add, ← Nat.mul_assoc, Nat.mul_comm (den * 2 ^ scale.toNat)] at hlt
    have hfield : (scale + 1074).toNat ≤ b + 1022 := by omega
    -- a significand that rounds up to `2 ^ 53` carries into the exponent field
    have hproduct := Nat.mul_le_mul_right fractionLimit hfield
    apply min_le_of_left_le
    rw [Nat.add_mul] at hproduct ⊢
    have hcarry : 2 ^ 53 + 1022 * fractionLimit = 1024 * fractionLimit := by decide
    omega

theorem magnitude_ofRatio (negative : Bool) (num den : Nat) :
    (ofRatio negative num den).magnitude = magnitudeBits num den := by
  have hle := magnitudeBits_le num den
  have hlimit : infinityBits < 2 ^ 63 := by decide
  have hsign : signBit = 2 ^ 63 := by decide
  unfold magnitude ofRatio
  dsimp only
  rw [UInt64.toNat_ofNat_of_lt', hsign]
  · split <;> omega
  · change _ < 2 ^ 64
    split <;> omega

theorem isFinite_ofRatio {b : Nat} (hb : b ≤ 1022) {negative : Bool} (h : num < 2 ^ (b + 1) * den) :
    (ofRatio negative num den).isFinite := by
  have hle := magnitudeBits_le_of_lt h
  rw [isFinite, magnitude_ofRatio, decide_eq_true_iff]
  unfold infinityBits fractionLimit at *
  omega

/-- A number that is less than `2 ^ a` without its sign. -/
def Below (a : Nat) (x : Binary64) : Prop := x.ratio.1 < 2 ^ a * x.ratio.2

theorem ratio_snd_pos (x : Binary64) : 0 < x.ratio.2 := pow2_pos _

theorem Below.mono {a b : Nat} {x : Binary64} (h : Below a x) (hab : a ≤ b) : Below b x :=
  h.trans_le (Nat.mul_le_mul_right _ (Nat.pow_le_pow_right Nat.two_pos hab))

theorem significand_lt (x : Binary64) : x.significand < 2 ^ 53 := by
  have hmod := Nat.mod_lt x.magnitude (show 0 < fractionLimit by decide)
  unfold significand fractionLimit at *
  split <;> omega

theorem below_of_magnitude_le {x : Binary64} {b : Nat} (h : x.magnitude ≤ (b + 1024) * fractionLimit) :
    Below (b + 2) x := by
  have hsignificand := significand_lt x
  have hfield : x.magnitude / fractionLimit ≤ b + 1024 :=
    Nat.div_le_of_le_mul (by rwa [Nat.mul_comm] at h)
  have hscale : x.scale ≤ b - 51 := by
    unfold scale
    split <;> omega
  have hlt : x.significand * 2 ^ 0 < 1 * 2 ^ 53 := by omega
  unfold Below ratio
  dsimp only
  rw [pow2_eq, pow2_eq, ← Nat.pow_add]
  have hshifted : x.significand * 2 ^ x.scale.toNat < 1 * 2 ^ (b + 2 + (-x.scale).toNat) :=
    lt_of_exponents hlt (by omega)
  rwa [Nat.one_mul] at hshifted

/-- Rounding takes a number at most to the next power of two. -/
theorem below_ofRatio {a : Nat} {negative : Bool} (ha : a ≠ 0) (h : num < 2 ^ a * den) :
    Below (a + 1) (ofRatio negative num den) := by
  obtain ⟨b, rfl⟩ := Nat.exists_eq_succ_of_ne_zero ha
  refine below_of_magnitude_le ?_
  rw [magnitude_ofRatio]
  exact magnitudeBits_le_of_lt h

/-- Dividing by a number from `2 ^ c` on takes that much off a bound. -/
theorem div_lt {a c : Nat} {x y : Binary64} (hx : Below (a + c) x)
    (hy : 2 ^ c * y.ratio.2 ≤ y.ratio.1) :
    x.ratio.1 * y.ratio.2 < 2 ^ a * (x.ratio.2 * y.ratio.1) := by
  have hpos : 0 < y.ratio.1 := Nat.lt_of_lt_of_le (Nat.mul_pos (Nat.two_pow_pos c) y.ratio_snd_pos) hy
  refine Nat.lt_of_mul_lt_mul_left (a := 2 ^ c) ?_
  calc 2 ^ c * (x.ratio.1 * y.ratio.2)
      = x.ratio.1 * (2 ^ c * y.ratio.2) := by ring
    _ ≤ x.ratio.1 * y.ratio.1 := Nat.mul_le_mul_left _ hy
    _ < 2 ^ (a + c) * x.ratio.2 * y.ratio.1 := Nat.mul_lt_mul_of_pos_right hx hpos
    _ = 2 ^ c * (2 ^ a * (x.ratio.2 * y.ratio.1)) := by rw [Nat.pow_add]; ring

theorem magnitude_neg (x : Binary64) : x.neg.magnitude = x.magnitude := by
  have hmod : (0x8000000000000000 : UInt64).toNat % 2 ^ 63 = 0 := by decide
  unfold magnitude neg
  dsimp only
  rw [UInt64.toNat_xor]
  change (_ ^^^ _) % 2 ^ 63 = _ % 2 ^ 63
  rw [Nat.xor_mod_two_pow, hmod, Nat.xor_zero]

@[simp] theorem isFinite_neg (x : Binary64) : x.neg.isFinite = x.isFinite := by
  rw [isFinite, isFinite, magnitude_neg]

theorem isFinite_of_not_isInfinite {negative : Bool}
    (h : ¬ (ofRatio negative num den).isInfinite) : (ofRatio negative num den).isFinite := by
  have hle := magnitudeBits_le num den
  rw [isInfinite, magnitude_ofRatio, beq_iff_eq] at h
  rw [isFinite, magnitude_ofRatio, decide_eq_true_iff]
  omega

end Localnet.Binary64
