import Localnet.Der
import Localnet.Proofs.Bytes

/-!
# Elements at a place

Elements of whatever length, looked up by the place where they start. An element says itself where it
ends. So two that start at one place are the same, whatever comes behind them, and an element that was
written is found wherever its bytes occur.
-/

namespace Localnet

namespace Der

open Bytes (OccursAt)

/-- A length of whatever size in its shortest form, and what follows it. Below `0x80` it is one byte, and
otherwise it is the number of its digits and then the digits. -/
def anyLength? : List UInt8 → Option (Nat × List UInt8)
  | [] => none
  | n :: rest =>
    if n < 0x80 then some (n.toNat, rest)
    else
      let digits := rest.take (n.toNat - 0x80)
      if n < 0xFF ∧ digits.length = n.toNat - 0x80 ∧ digits.head? ≠ some 0 ∧
          0x80 ≤ Bytes.toNat digits then
        some (Bytes.toNat digits, rest.drop (n.toNat - 0x80))
      else none

/-- Where an element starts, where its contents start and where it ends. -/
structure Span where
  start : Nat
  inner : Nat
  stop : Nat
  deriving DecidableEq

def Span.bytesIn (span : Span) (whole : List UInt8) : List UInt8 :=
  (whole.drop span.start).take (span.stop - span.start)

/-- The element that starts at a place, which has to have this tag. -/
def elementAt? (whole : List UInt8) (tag : Tag) (start : Nat) : Option Span :=
  match whole.drop start with
  | [] => none
  | found :: rest =>
    if found = tag then
      match anyLength? rest with
      | some (n, contents) =>
        let inner := whole.length - contents.length
        if inner + n ≤ whole.length then some ⟨start, inner, inner + n⟩ else none
      | none => none
    else none

theorem anyLength?_long {digits : List UInt8} (hfew : digits.length < 0x7F)
    (hhead : digits.head? ≠ some 0) (hlarge : 0x80 ≤ Bytes.toNat digits) (rest : List UInt8) :
    anyLength? (UInt8.ofNat (0x80 + digits.length) :: (digits ++ rest)) =
      some (Bytes.toNat digits, rest) := by
  have hcount : (UInt8.ofNat (0x80 + digits.length)).toNat = 0x80 + digits.length :=
    UInt8.toNat_ofNat_of_lt' (by simp only [UInt8.size]; omega)
  have hlong : ¬ UInt8.ofNat (0x80 + digits.length) < 0x80 := by
    rw [UInt8.lt_iff_toNat_lt, hcount]
    exact Nat.not_lt.mpr (Nat.le_add_right _ _)
  have hfew : UInt8.ofNat (0x80 + digits.length) < 0xFF := by
    rw [UInt8.lt_iff_toNat_lt, hcount]
    exact Nat.add_lt_add_left hfew 0x80
  rw [anyLength?, if_neg hlong]
  simp only [hcount, Nat.add_sub_cancel_left, List.take_left, List.drop_left]
  rw [if_pos ⟨hfew, trivial, hhead, hlarge⟩]

theorem anyLength?_digits {n : Nat} (count : Nat) (hfew : count + 1 < 0x7F) (hlarge : 0x80 ≤ n)
    (hlow : 256 ^ count ≤ n) (hhigh : n < 256 ^ (count + 1)) (rest : List UInt8) :
    anyLength? (UInt8.ofNat (0x80 + (count + 1)) :: (Bytes.ofNat (count + 1) n ++ rest)) =
      some (n, rest) := by
  have hvalue : Bytes.toNat (Bytes.ofNat (count + 1) n) = n := by
    rw [Bytes.toNat_ofNat, Nat.mod_eq_of_lt hhigh]
  have hlong := @anyLength?_long (Bytes.ofNat (count + 1) n)
  rw [Bytes.length_ofNat, hvalue] at hlong
  exact hlong hfew (Bytes.head?_ofNat hlow hhigh) hlarge rest

theorem anyLength?_length {n : Nat} (hn : n < 0x10000) (rest : List UInt8) :
    anyLength? (length n ++ rest) = some (n, rest) := by
  unfold length
  split
  next hshort =>
    have hn : (UInt8.ofNat n).toNat = n := UInt8.toNat_ofNat_of_lt' (by simp only [UInt8.size]; omega)
    have hlt : UInt8.ofNat n < 0x80 := by
      rw [UInt8.lt_iff_toNat_lt, hn]
      exact hshort
    rw [List.singleton_append, anyLength?, if_pos hlt, hn]
  next hlarge =>
    split
    next hbyte => exact anyLength?_digits 0 (by decide) (by omega) (by omega) hbyte rest
    next hbytes => exact anyLength?_digits 1 (by decide) (by omega) (by omega) hn rest

variable {whole content : List UInt8} {tag : Tag} {start : Nat} {span : Span}

theorem start_of_elementAt? (h : elementAt? whole tag start = some span) : span.start = start := by
  unfold elementAt? at h
  split at h
  · cases h
  · split at h
    · split at h
      · dsimp only at h
        split at h
        · cases h
          rfl
        · cases h
      · cases h
    · cases h

/-- An element that was written is found where its bytes occur. -/
theorem elementAt?_of_occursAt (hcontent : content.length < 0x10000)
    (h : OccursAt (element tag content) whole start) :
    elementAt? whole tag start =
      some ⟨start, start + (length content.length).length + 1, start + (element tag content).length⟩ := by
  obtain ⟨before, after, rfl, rfl⟩ := h.exists_append (List.cons_ne_nil _ _)
  have hdrop : (before ++ (element tag content ++ after)).drop before.length =
      tag :: (length content.length ++ (content ++ after)) := by
    rw [List.drop_left, element]
    simp only [List.cons_append, List.append_assoc]
  have hlengths : (element tag content).length =
      (length content.length).length + content.length + 1 := by
    rw [element, List.cons_append, List.length_cons, List.length_append]
  have hinner : (before ++ (element tag content ++ after)).length - (content ++ after).length =
      before.length + (length content.length).length + 1 := by
    simp only [List.length_append, hlengths]
    omega
  have hstop : before.length + (length content.length).length + 1 + content.length =
      before.length + (element tag content).length := by
    omega
  have hfits : before.length + (element tag content).length ≤
      (before ++ (element tag content ++ after)).length := by
    simp only [List.length_append]
    omega
  unfold elementAt?
  rw [hdrop]
  simp only [if_true, anyLength?_length hcontent, hinner, hstop, if_pos hfits]

/-- Of an element it is enough to know where it starts: if it has this tag, what is found there is the
whole of it. -/
theorem bytesIn_eq_element_iff (hcontent : content.length < 0x10000)
    (h : elementAt? whole tag start = some span) :
    span.bytesIn whole = element tag content ↔ OccursAt (element tag content) whole span.start := by
  constructor
  · intro hbytes
    rw [← hbytes]
    exact List.take_prefix _ _
  · intro hoccurs
    rw [start_of_elementAt? h] at hoccurs
    cases h.symm.trans (elementAt?_of_occursAt hcontent hoccurs)
    obtain ⟨rest, hrest⟩ := hoccurs
    rw [Span.bytesIn, ← hrest, Nat.add_sub_cancel_left, List.take_left]

end Der
end Localnet
