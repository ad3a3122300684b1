import Localnet.PrivateKey
import Localnet.Proofs.Der
import Mathlib.Data.Option.Basic

/-!
# The size of public keys

Each kind of key that is read has a public half of limited size: points of a curve have a fixed one, and of
the numbers of an RSA key it is checked. So the info of a public key is always an element whose length is
written right.
-/

namespace Localnet

namespace Der

theorem length_length_le (n : Nat) : (length n).length ≤ 3 := by
  unfold length
  split
  · simp
  · split <;> simp

theorem length_element_le (tag : Tag) (content : List UInt8) :
    (element tag content).length ≤ content.length + 4 := by
  have hlength := length_length_le content.length
  rw [element, List.cons_append, List.length_cons, List.length_append]
  omega

theorem length_natural_le (digits : List UInt8) : (natural digits).length ≤ digits.length + 5 := by
  refine (length_element_le _ _).trans ?_
  split
  · rfl
  · omega

/-- Digits without a zero in front, if there is more than one of them. -/
def IsNumeral : List UInt8 → Prop
  | digit :: _ :: _ => digit ≠ 0
  | _ => True

theorem isNumeral_of_natural? {bytes digits rest : List UInt8}
    (h : natural? bytes = some (digits, rest)) : IsNumeral digits := by
  unfold natural? at h
  split at h
  · cases h
    trivial
  next digit others _ _ =>
    split at h
    next hlarge =>
      cases h
      have hdigit : digit ≠ 0 := by
        rintro rfl
        exact absurd hlarge (by decide)
      cases others with
      | nil => trivial
      | cons => exact hdigit
    · cases h
  next digit others _ _ hzeros _ =>
    split at h
    · cases h
      cases others with
      | nil => trivial
      | cons next others =>
          rintro rfl
          exact hzeros next others rfl rfl
    · cases h
  · cases h

/-- A number needs as many bytes as it has. -/
theorem IsNumeral.length_le {digits : List UInt8} (h : IsNumeral digits) {count : Nat}
    (hlt : Bytes.toNat digits < 2 ^ (8 * (count + 1))) : digits.length ≤ count + 1 := by
  match digits with
  | [] => exact Nat.zero_le _
  | [_] => exact Nat.succ_le_succ (Nat.zero_le _)
  | digit :: next :: others =>
      have hpow : 2 ^ (8 * (count + 1)) = 256 ^ (count + 1) := by rw [Nat.pow_mul]
      rw [hpow] at hlt
      exact (Nat.pow_lt_pow_iff_right (by decide)).mp ((Bytes.pow_le_toNat h _).trans_lt hlt)

end Der

namespace PublicKey

/-- Keys of a size that fits. -/
def IsShort : PublicKey → Prop
  | ed25519 bytes | p256 bytes | p384 bytes => bytes.length ≤ 97
  | rsa modulus exponent => modulus.length ≤ 512 ∧ exponent.length ≤ 5

theorem IsShort.info_eq {key : PublicKey} (h : key.IsShort) :
    ∃ content, key.info = Der.element Der.sequence content ∧ content.length < 0x10000 := by
  have hwrap : ∀ algorithm bytes : List UInt8, algorithm.length ≤ 100 → bytes.length ≤ 1000 →
      (Der.element Der.sequence algorithm ++ Der.bits bytes).length < 0x10000 := by
    intro algorithm bytes halgorithm hbytes
    have hfirst := Der.length_element_le Der.sequence algorithm
    have hsecond := Der.length_element_le Der.bitString (0 :: bytes)
    rw [List.length_cons] at hsecond
    rw [List.length_append, Der.bits]
    omega
  cases key with
  | ed25519 bytes => exact ⟨_, rfl, hwrap _ _ (by decide) (h.trans (by decide))⟩
  | p256 point => exact ⟨_, rfl, hwrap _ _ (by decide) (h.trans (by decide))⟩
  | p384 point => exact ⟨_, rfl, hwrap _ _ (by decide) (h.trans (by decide))⟩
  | rsa modulus exponent =>
      obtain ⟨hmodulus, hexponent⟩ := h
      refine ⟨_, rfl, hwrap _ _ (by decide) ?_⟩
      have hboth := Der.length_element_le Der.sequence (Der.natural modulus ++ Der.natural exponent)
      have hfirst := Der.length_natural_le modulus
      have hsecond := Der.length_natural_le exponent
      rw [List.length_append] at hboth
      omega

end PublicKey

namespace PrivateKey

variable {doc : Document} {key : PublicKey}

theorem length_publicBytes (curve : Curve.Weierstrass) (n : Nat) :
    (curve.publicBytes n).length = 2 * curve.size + 1 := by
  simp only [Curve.Weierstrass.publicBytes, List.cons_append, List.length_cons, List.length_append,
    Bytes.length_ofNat]
  omega

theorem isShort_of_ed25519? (h : ed25519? doc = some key) : key.IsShort := by
  simp only [ed25519?, Option.bind_eq_bind, Option.bind_eq_some_iff] at h
  obtain ⟨_, -, seed, -, _, -, _, -, hkey⟩ := h
  cases hkey
  have hlength : (Curve.Edwards.publicBytes seed).length = 32 := by
    rw [Curve.Edwards.publicBytes, Curve.Edwards.encode, Curve.Edwards.littleEndian, List.length_reverse,
      Bytes.length_ofNat]
  exact hlength.le.trans (by decide)

theorem length_of_point? {curve : Curve.Weierstrass} {curveId point : List UInt8}
    (h : point? curve curveId doc = some point) : point.length = 2 * curve.size + 1 := by
  simp only [point?, Option.bind_eq_bind, Option.bind_eq_some_iff, Option.guard_eq_some'] at h
  obtain ⟨_, -, _, -, _, -, _, -, _, -, _, -, _, -, _, -, given, -, _, -, _, hgiven, hpoint⟩ := h
  cases hpoint
  rw [hgiven, length_publicBytes]

theorem isNumeral_of_naturals? {count : Nat} {bytes rest : List UInt8} {numbers : List (List UInt8)}
    (h : naturals? count bytes = some (numbers, rest)) :
    ∀ digits ∈ numbers, Der.IsNumeral digits := by
  induction count generalizing bytes numbers with
  | zero =>
      cases h
      exact List.forall_mem_nil _
  | succ count ih =>
      simp only [naturals?, Option.bind_eq_bind, Option.bind_eq_some_iff] at h
      obtain ⟨⟨digits, afterFirst⟩, hfirst, ⟨others, _⟩, hothers, hnumbers⟩ := h
      cases hnumbers
      exact List.forall_mem_cons.mpr ⟨Der.isNumeral_of_natural? hfirst, ih hothers⟩

theorem lt_of_bitLength_le {n bits : Nat} (h : bitLength n ≤ bits) : n < 2 ^ bits := by
  unfold bitLength at h
  split at h
  next hzero =>
    rw [hzero]
    exact Nat.two_pow_pos bits
  next => exact Nat.lt_log2_self.trans_le (Nat.pow_le_pow_right Nat.two_pos h)

theorem Rsa.lt_of_hasSize {k : Rsa} (h : k.hasSize) : k.n < 2 ^ (8 * (511 + 1)) ∧ k.e < 2 ^ (8 * (4 + 1)) := by
  simp only [Rsa.hasSize, Bool.and_eq_true, decide_eq_true_eq] at h
  obtain ⟨⟨⟨⟨⟨-, hn⟩, -⟩, -⟩, he⟩, -⟩ := h
  exact ⟨lt_of_bitLength_le hn, he.trans (by decide)⟩

theorem isShort_of_rsa? (h : rsa? doc = some key) : key.IsShort := by
  simp only [rsa?, Option.bind_eq_bind, Option.bind_eq_some_iff] at h
  obtain ⟨_, -, body, -, ⟨numbers, rest⟩, hnumbers, h⟩ := h
  have hdigits := isNumeral_of_naturals? hnumbers
  split at h
  next version n e d p q dp dq qInverse heq =>
    cases heq
    simp only [Option.bind_eq_some_iff, Option.guard_eq_some'] at h
    obtain ⟨_, ⟨-, hsize, -⟩, hkey⟩ := h
    cases hkey
    obtain ⟨hn, he⟩ := Rsa.lt_of_hasSize hsize
    simp only [List.forall_mem_cons] at hdigits
    exact ⟨hdigits.2.1.length_le hn, hdigits.2.2.1.length_le he⟩
  next => cases h

theorem isShort_of_publicKey? {der : List UInt8} (h : publicKey? der = some key) : key.IsShort := by
  simp only [publicKey?, Option.bind_eq_bind, Option.bind_eq_some_iff, Option.orElse_eq_some,
    Option.map_eq_some_iff] at h
  obtain ⟨doc, -, h | ⟨-, ⟨point, hpoint, rfl⟩ | ⟨-, ⟨point, hpoint, rfl⟩ | ⟨-, h⟩⟩⟩⟩ := h
  · exact isShort_of_ed25519? h
  · exact (length_of_point? hpoint).le.trans (by decide)
  · exact (length_of_point? hpoint).le.trans (by decide)
  · exact isShort_of_rsa? h

end PrivateKey

end Localnet
