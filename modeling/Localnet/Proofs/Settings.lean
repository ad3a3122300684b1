import Localnet.Network.Launch
import Mathlib.Algebra.Group.Int.Defs

/-!
# Values of settings

A number is read from the one value that is written for it, and a field is well typed if and only if it
can be read.
-/

namespace Localnet

open Json (Value)

/-- Numbers are integers of the right size, never floats. -/
def FieldKind.Holds : FieldKind → Value → Prop
  | .networkId, .int n => 0 ≤ n.val ∧ n.val < 2 ^ 32
  | .port, .int n => 0 ≤ n.val ∧ n.val < 2 ^ 16
  | .text, .text _ => True
  | _, _ => False

instance FieldKind.decidableHolds (kind : FieldKind) (v : Value) : Decidable (kind.Holds v) := by
  unfold FieldKind.Holds
  split <;> infer_instance

variable {v : Value}

theorem natBelow?_eq_some_iff {limit n : Nat} :
    natBelow? limit v = some n ↔ n < limit ∧ ∃ h, v = .ofNat n h := by
  cases v with
  | int m =>
      obtain ⟨m, hm⟩ := m
      have hlt : m.toNat < 0x10000000000000000 := by omega
      constructor
      · intro h
        by_cases hpos : 0 ≤ m
        · simp only [natBelow?, Value.nat?, hpos, if_true, Option.filter_eq_some_iff,
            Option.some.injEq, decide_eq_true_eq] at h
          obtain ⟨rfl, hn⟩ := h
          refine ⟨hn, hlt, ?_⟩
          simp only [Value.ofNat, Json.Integer.ofNat, Value.int.injEq, Json.Integer.mk.injEq]
          omega
        · simp [natBelow?, Value.nat?, hpos] at h
      · rintro ⟨hn, h, heq⟩
        obtain rfl : m = n := by simpa [Value.ofNat, Json.Integer.ofNat] using heq
        simp [natBelow?, Value.nat?, hn]
  | _ => simp [natBelow?, Value.nat?, Value.ofNat]

theorem natBelow?_isSome_iff {limit : Nat} :
    (natBelow? limit v).isSome ↔ ∃ n, v = .int n ∧ 0 ≤ n.val ∧ n.val < limit := by
  cases v with
  | int n =>
      by_cases hn : 0 ≤ n.val
      · simp [natBelow?, Value.nat?, hn, Int.toNat_lt]
      · simp [natBelow?, Value.nat?, hn]
  | _ => simp [natBelow?, Value.nat?]

theorem asNetworkId?_eq_some_iff {id : NetworkId} :
    asNetworkId? v = some id ↔ v = Genesis.idValue id := by
  simp only [asNetworkId?, Option.map_eq_some_iff, natBelow?_eq_some_iff]
  constructor
  · rintro ⟨n, ⟨hn, h, rfl⟩, rfl⟩
    have hid : (UInt32.ofNat n).toNat = n := UInt32.toNat_ofNat_of_lt hn
    simp only [Genesis.idValue, hid]
  · rintro rfl
    exact ⟨id.toNat, ⟨id.toNat_lt, _, rfl⟩, UInt32.ofNat_toNat⟩

theorem asPort?_eq_some_iff {port : Port} :
    asPort? v = some port ↔ v = Network.portValue port := by
  simp only [asPort?, Option.map_eq_some_iff, natBelow?_eq_some_iff]
  constructor
  · rintro ⟨n, ⟨hn, h, rfl⟩, rfl⟩
    have hport : (UInt16.ofNat n).toNat = n := UInt16.toNat_ofNat_of_lt hn
    simp only [Network.portValue, hport]
  · rintro rfl
    exact ⟨port.toNat, ⟨port.toNat_lt, _, rfl⟩, UInt16.ofNat_toNat⟩

theorem asText?_eq_some_iff {s : String} : asText? v = some s ↔ v = .text s := by
  cases v <;> simp [asText?]

theorem asNetworkId?_isSome_iff : (asNetworkId? v).isSome ↔ FieldKind.networkId.Holds v := by
  rw [asNetworkId?, Option.isSome_map, natBelow?_isSome_iff]
  cases v <;> simp [FieldKind.Holds, UInt32.size]

theorem asPort?_isSome_iff : (asPort? v).isSome ↔ FieldKind.port.Holds v := by
  rw [asPort?, Option.isSome_map, natBelow?_isSome_iff]
  cases v <;> simp [FieldKind.Holds, UInt16.size]

theorem asText?_isSome_iff : (asText? v).isSome ↔ FieldKind.text.Holds v := by
  cases v <;> simp [FieldKind.Holds, asText?]

end Localnet
