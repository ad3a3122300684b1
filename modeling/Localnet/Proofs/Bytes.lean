import Localnet.Bytes
import Mathlib.Data.List.Induction
import Mathlib.Data.List.Infix
import Mathlib.Tactic.Ring

/-!
# Numbers as bytes, and bytes in bytes

A number and the bytes that it is written with, either of which gives the other if the count of bytes is
known. Bytes that occur in others do so at some place.
-/

namespace Localnet

namespace Bytes

theorem toNat_concat (bytes : List UInt8) (byte : UInt8) :
    toNat (bytes ++ [byte]) = toNat bytes * 256 + byte.toNat := by
  rw [toNat, List.foldl_append]
  rfl

theorem toNat_cons (byte : UInt8) (bytes : List UInt8) :
    toNat (byte :: bytes) = byte.toNat * 256 ^ bytes.length + toNat bytes := by
  induction bytes using List.reverseRecOn with
  | nil => simp [toNat]
  | append_singleton bytes last ih =>
      rw [← List.cons_append, toNat_concat, toNat_concat, ih, List.length_append, List.length_singleton,
        Nat.pow_succ]
      ring

/-- Without a zero in front, a number is as large as its digits are many. -/
theorem pow_le_toNat {byte : UInt8} (hbyte : byte ≠ 0) (bytes : List UInt8) :
    256 ^ bytes.length ≤ toNat (byte :: bytes) := by
  have hpos : 0 < byte.toNat := Nat.pos_of_ne_zero fun h => hbyte (UInt8.toNat_inj.mp h)
  calc 256 ^ bytes.length ≤ byte.toNat * 256 ^ bytes.length := Nat.le_mul_of_pos_left _ hpos
    _ ≤ toNat (byte :: bytes) := by
      rw [toNat_cons]
      exact Nat.le_add_right _ _

theorem ofNat_succ (count n : Nat) :
    ofNat (count + 1) n = UInt8.ofNat (n >>> (8 * count)) :: ofNat count n := by
  simp [ofNat, List.range_succ]

theorem toNat_ofNat (count n : Nat) : toNat (ofNat count n) = n % 256 ^ count := by
  induction count with
  | zero => simp [ofNat, toNat, Nat.mod_one]
  | succ count ih =>
      have hpow : 2 ^ (8 * count) = 256 ^ count := by rw [Nat.pow_mul]
      calc toNat (ofNat (count + 1) n)
          = n / 256 ^ count % 256 * 256 ^ count + n % 256 ^ count := by
            rw [ofNat_succ, toNat_cons, length_ofNat, ih, UInt8.toNat_ofNat', Nat.shiftRight_eq_div_pow, hpow]
        _ = n % (256 ^ count * 256) := by
            rw [Nat.mod_mul]
            ring
        _ = n % 256 ^ (count + 1) := by rw [Nat.pow_succ]

theorem ofNat_concat (count n : Nat) : ofNat (count + 1) n = ofNat count (n / 256) ++ [UInt8.ofNat n] := by
  have hshift : ∀ i, n >>> (8 * (i + 1)) = (n / 256) >>> (8 * i) := fun i => by
    rw [Nat.mul_succ, Nat.add_comm, Nat.shiftRight_add, Nat.shiftRight_eq_div_pow n 8]
  simp [ofNat, List.range_succ_eq_map, hshift]

theorem ofNat_toNat (bytes : List UInt8) : ofNat bytes.length (toNat bytes) = bytes := by
  induction bytes using List.reverseRecOn with
  | nil => rfl
  | append_singleton bytes last ih =>
      have hlast := last.toNat_lt
      have hquotient : (toNat bytes * 256 + last.toNat) / 256 = toNat bytes := by omega
      have hrest : UInt8.ofNat (toNat bytes * 256 + last.toNat) = last := by
        rw [← UInt8.toNat_inj, UInt8.toNat_ofNat']
        omega
      rw [toNat_concat, List.length_append, List.length_singleton, ofNat_concat, hquotient, hrest, ih]

/-- A number with as many bytes as it needs does not start with a zero. -/
theorem head?_ofNat {count n : Nat} (hlow : 256 ^ count ≤ n) (hhigh : n < 256 ^ (count + 1)) :
    (ofNat (count + 1) n).head? ≠ some 0 := by
  have hpow : 2 ^ (8 * count) = 256 ^ count := by rw [Nat.pow_mul]
  have hlt : n / 256 ^ count < 256 := by
    rw [Nat.pow_succ] at hhigh
    exact Nat.div_lt_of_lt_mul hhigh
  have hpos : 0 < n / 256 ^ count := Nat.div_pos hlow (Nat.pow_pos (by decide))
  rw [ofNat_succ, List.head?_cons, Nat.shiftRight_eq_div_pow, hpow]
  intro h
  have hzero := congrArg UInt8.toNat (Option.some.inj h)
  rw [UInt8.toNat_ofNat_of_lt' hlt] at hzero
  exact hpos.ne' hzero

/-- The bytes of a part stand in a whole from a place on. -/
def OccursAt (part whole : List UInt8) (place : Nat) : Prop := part <+: whole.drop place

instance (part whole : List UInt8) (place : Nat) : Decidable (OccursAt part whole place) :=
  inferInstanceAs (Decidable (part <+: whole.drop place))

variable {part whole : List UInt8} {place : Nat}

theorem infix_iff_exists_occursAt : part <:+: whole ↔ ∃ place, OccursAt part whole place := by
  constructor
  · rintro ⟨before, after, rfl⟩
    refine ⟨before.length, after, ?_⟩
    rw [List.append_assoc, List.drop_left]
  · rintro ⟨place, hplace⟩
    exact hplace.isInfix.trans (List.drop_suffix place whole).isInfix

theorem OccursAt.lt_length (h : OccursAt part whole place) (hpart : part ≠ []) : place < whole.length := by
  have hlength := h.length_le
  have hpos := List.length_pos_iff.mpr hpart
  rw [List.length_drop] at hlength
  omega

theorem OccursAt.exists_append (h : OccursAt part whole place) (hpart : part ≠ []) :
    ∃ before after, whole = before ++ (part ++ after) ∧ before.length = place := by
  obtain ⟨after, hafter⟩ := id h
  refine ⟨whole.take place, after, ?_, ?_⟩
  · rw [hafter, List.take_append_drop]
  · rw [List.length_take]
    exact Nat.min_eq_left (h.lt_length hpart).le

/-- Where bytes occur can be looked up among the ends of the whole. -/
theorem OccursAt.eq_of_forall_tails (h : OccursAt part whole place) (hpart : part ≠ []) {only : Nat}
    (honly : ∀ tail ∈ whole.tails, part <+: tail → whole.length = tail.length + only) : place = only := by
  have hlength := honly _ ((List.mem_tails _ _).mpr (List.drop_suffix place whole)) h
  have hlt := h.lt_length hpart
  rw [List.length_drop] at hlength
  omega

end Bytes

end Localnet
