import Localnet.Table
import Mathlib.Data.List.Basic

/-!
# Texts in the order of their bytes

Texts are compared character by character. In UTF-8 that is the order of their bytes: of two characters
the one with the larger number has the larger first byte, or after equal ones the larger next one, and
so no text has to be decoded to be put in its place.
-/

namespace Localnet

open String (utf8EncodeChar)

/-- The bytes of a text in UTF-8. -/
def utf8Bytes (text : String) : List UInt8 := text.toUTF8.data.toList

theorem utf8Bytes_eq (text : String) : utf8Bytes text = text.toList.flatMap utf8EncodeChar := by
  calc utf8Bytes text = utf8Bytes (.ofList text.toList) := by rw [String.ofList_toList]
    _ = text.toList.flatMap utf8EncodeChar := List.toList_data_toByteArray

/-- Numbers are in the order of their digits, which here have six bits. -/
theorem digits_lt_of_lt {m n : Nat} (h : m < n) (hn : n < 2097152) :
    m / 262144 % 8 < n / 262144 % 8 ∨ m / 262144 % 8 = n / 262144 % 8 ∧
      (m / 4096 % 64 < n / 4096 % 64 ∨ m / 4096 % 64 = n / 4096 % 64 ∧
        (m / 64 % 64 < n / 64 % 64 ∨ m / 64 % 64 = n / 64 % 64 ∧ m % 64 < n % 64)) := by
  have hdigits : ∀ k < 2097152,
      k = k / 262144 % 8 * 262144 + k / 4096 % 64 * 4096 + k / 64 % 64 * 64 + k % 64 := by
    omega
  have hm := hdigits m (Nat.lt_trans h hn)
  have hn := hdigits n hn
  have hbound : ∀ k, k % 64 < 64 := fun k => Nat.mod_lt k (by decide)
  have hbounds := And.intro (And.intro (hbound m) (hbound n)) (And.intro
    (And.intro (hbound (m / 64)) (hbound (n / 64))) (And.intro (hbound (m / 4096)) (hbound (n / 4096))))
  clear hdigits hbound
  -- the digits are all that matters
  generalize m / 262144 % 8 = m₃ at *
  generalize m / 4096 % 64 = m₂ at *
  generalize m / 64 % 64 = m₁ at *
  generalize m % 64 = m₀ at *
  generalize n / 262144 % 8 = n₃ at *
  generalize n / 4096 % 64 = n₂ at *
  generalize n / 64 % 64 = n₁ at *
  generalize n % 64 = n₀ at *
  omega

/-- The bytes of a smaller character come first, whatever stands behind both. -/
theorem utf8EncodeChar_append_lt {a b : Char} (h : a < b) (as bs : List UInt8) :
    utf8EncodeChar a ++ as < utf8EncodeChar b ++ bs := by
  have hlt : a.val.toNat < b.val.toNat := h
  have hvalid : b.val.toNat < 1114112 := by
    have hvalid := b.valid
    simp only [UInt32.isValidChar, Nat.isValidChar] at hvalid
    omega
  unfold utf8EncodeChar
  generalize a.val.toNat = m at hlt ⊢
  generalize b.val.toNat = n at hlt hvalid ⊢
  dsimp only
  by_cases hlong : 65535 < m
  · -- both have four bytes, one for each digit
    rw [if_neg (by omega), if_neg (by omega), if_neg (by omega), if_neg (by omega), if_neg (by omega),
      if_neg (by omega)]
    simp only [List.cons_append, List.nil_append, List.cons_lt_cons_iff, UInt8.lt_iff_toNat_lt,
      ← UInt8.toNat_inj, UInt8.toNat_ofNat']
    simp (disch := omega) only [Nat.mod_eq_of_lt (b := 2 ^ 8), Nat.add_lt_add_iff_right,
      Nat.add_right_cancel_iff]
    exact (digits_lt_of_lt hlt (by omega)).imp_right <| And.imp_right fun h => h.imp_right <|
      And.imp_right fun h => h.imp_right (And.imp_right .inl)
  · -- otherwise the first bytes decide, or the two have the same number of them, three at most
    split_ifs <;>
      simp only [List.cons_append, List.nil_append, List.cons_lt_cons_iff, UInt8.lt_iff_toNat_lt,
        ← UInt8.toNat_inj, UInt8.toNat_ofNat'] <;>
      omega

theorem utf8EncodeChar_ne_nil (c : Char) : utf8EncodeChar c ≠ [] := by
  unfold utf8EncodeChar
  dsimp only
  split_ifs <;> exact List.cons_ne_nil _ _

theorem flatMap_utf8EncodeChar_lt {as bs : List Char} (h : as < bs) :
    as.flatMap utf8EncodeChar < bs.flatMap utf8EncodeChar := by
  induction as generalizing bs with
  | nil =>
      cases bs with
      | nil => cases h
      | cons b bs =>
          obtain ⟨byte, rest, hb⟩ := List.exists_cons_of_ne_nil (utf8EncodeChar_ne_nil b)
          rw [List.flatMap_cons, hb]
          exact List.nil_lt_cons _ _
  | cons a as ih =>
      cases bs with
      | nil => cases h
      | cons b bs =>
          rw [List.flatMap_cons, List.flatMap_cons]
          rcases List.cons_lt_cons_iff.mp h with hlt | ⟨rfl, hrest⟩
          · exact utf8EncodeChar_append_lt hlt _ _
          · exact List.append_left_lt (ih hrest)

theorem utf8Bytes_lt {a b : String} (h : a < b) : utf8Bytes a < utf8Bytes b := by
  rw [utf8Bytes_eq, utf8Bytes_eq]
  exact flatMap_utf8EncodeChar_lt h

/-- The names of a table are in the order of their bytes. -/
theorem Table.pairwise_names {α : Type} (t : Table α) :
    t.names.Pairwise fun a b => utf8Bytes a < utf8Bytes b := by
  rw [names, List.pairwise_map]
  exact t.ordered.imp utf8Bytes_lt

end Localnet
