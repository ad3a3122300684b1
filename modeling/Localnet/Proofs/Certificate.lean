import Localnet.Proofs.Network.Identity
import Localnet.Proofs.PublicKey

/-!
# The key in a certificate

A pair is accepted if the info of its key occurs in the contents of its certificate, at whatever place.
These need not be a certificate, and the place need not be the field that a certificate has for its own key.
What the check says of that field depends on the place alone: the field is the info of the key if and only
if the info occurs where the field starts.
-/

namespace Localnet

open Bytes (OccursAt)

namespace Der

/-- An element in a row, by its tag. -/
inductive Slot where
  | required (tag : Tag)
  | optional (tag : Tag)

/-- Where a row of elements ends that starts at a place. -/
def rowEnd? (whole : List UInt8) : List Slot → Nat → Option Nat
  | [], place => some place
  | .required tag :: rest, place =>
    (elementAt? whole tag place).bind fun span => rowEnd? whole rest span.stop
  | .optional tag :: rest, place =>
    if whole[place]? = some tag then
      (elementAt? whole tag place).bind fun span => rowEnd? whole rest span.stop
    else rowEnd? whole rest place

end Der

namespace Certificate

open Der

/-- What comes before the key in the signed part of a certificate: its version, its serial number, the
algorithm of its signature, its issuer, the time that it is valid for and its subject. -/
def slotsBeforeKey : List Slot :=
  [.optional (context 0), .required integer, .required sequence, .required sequence, .required sequence,
    .required sequence]

/-- What comes behind the key: two ids, of the issuer and of the subject, and the extensions. -/
def slotsAfterKey : List Slot :=
  [.optional (primitiveContext 1), .optional (primitiveContext 2), .optional (context 3)]

/-- An algorithm and bits: the parts of the info of a key, and also what comes behind the signed part. -/
def slotsOfBits : List Slot := [.required sequence, .required bitString]

/-- Where in an X.509 certificate the info of its own key is; none if the bytes do not have the parts of a
certificate in their order, up to the last byte. What the parts hold is left open. -/
def keySpan? (der : List UInt8) : Option Span := do
  let whole ← elementAt? der sequence 0
  let signed ← elementAt? der sequence whole.inner
  let place ← rowEnd? der slotsBeforeKey signed.inner
  let key ← elementAt? der sequence place
  guard (rowEnd? der slotsOfBits key.inner = some key.stop)
  guard (rowEnd? der slotsAfterKey key.stop = some signed.stop)
  guard (rowEnd? der slotsOfBits signed.stop = some whole.stop ∧ whole.stop = der.length)
  return key

theorem elementAt?_of_keySpan? {der : List UInt8} {span : Span} (h : keySpan? der = some span) :
    elementAt? der sequence span.start = some span := by
  simp only [keySpan?, Option.bind_eq_bind, Option.bind_eq_some_iff] at h
  obtain ⟨_, -, _, -, place, -, key, hkey, _, -, _, -, _, -, heq⟩ := h
  cases heq
  rwa [start_of_elementAt? hkey]

end Certificate

namespace StakingIdentity

/-- The texts of a pair can be read, and this is what they hold. -/
structure Reads (key cert : String) (der : List UInt8) (publicKey : PublicKey) : Prop where
  cert : certificateOf cert = .ok der
  key : publicKeyOf key = .ok publicKey

/-- The certificate is one, and the field for its own key holds the info of the key. -/
def Matches (key cert : String) : Prop :=
  ∃ der publicKey span, Reads key cert der publicKey ∧ Certificate.keySpan? der = some span ∧
    span.bytesIn der = publicKey.info

variable {key cert : String} {der : List UInt8} {publicKey : PublicKey}

theorem Reads.unique {der' : List UInt8} {publicKey' : PublicKey} (h : Reads key cert der publicKey)
    (h' : Reads key cert der' publicKey') : der = der' ∧ publicKey = publicKey' :=
  ⟨Except.ok.inj (h.cert.symm.trans h'.cert), Except.ok.inj (h.key.symm.trans h'.key)⟩

theorem isShort_of_publicKeyOf (h : publicKeyOf key = .ok publicKey) : publicKey.IsShort := by
  unfold publicKeyOf at h
  split at h
  · cases h
  · split at h
    next hpublic =>
      cases h
      exact PrivateKey.isShort_of_publicKey? hpublic
    · cases h

/-- Whatever the bytes are, there is a text that has them for the contents of its certificate. -/
theorem reads_armor (h : publicKeyOf key = .ok publicKey) (der : List UInt8) :
    Reads key (Pem.armor "CERTIFICATE" der) der publicKey :=
  ⟨certificateOf_armor der, h⟩

/-- The field for a certificate's own key is the info of a key if that occurs where the field starts. -/
theorem Reads.bytesIn_keySpan?_iff (h : Reads key cert der publicKey) {span : Der.Span}
    (hspan : Certificate.keySpan? der = some span) :
    span.bytesIn der = publicKey.info ↔ OccursAt publicKey.info der span.start := by
  obtain ⟨content, hinfo, hcontent⟩ := (isShort_of_publicKeyOf h.key).info_eq
  rw [hinfo]
  exact Der.bytesIn_eq_element_iff hcontent (Certificate.elementAt?_of_keySpan? hspan)

theorem Reads.matches_iff (h : Reads key cert der publicKey) :
    Matches key cert ↔ ∃ span ∈ Certificate.keySpan? der, OccursAt publicKey.info der span.start := by
  constructor
  · rintro ⟨der', publicKey', span, hreads, hspan, hbytes⟩
    obtain ⟨rfl, rfl⟩ := h.unique hreads
    exact ⟨span, hspan, (h.bytesIn_keySpan?_iff hspan).mp hbytes⟩
  · rintro ⟨span, hspan, hplace⟩
    exact ⟨der, publicKey, span, h, hspan, (h.bytesIn_keySpan?_iff hspan).mpr hplace⟩

theorem Reads.ofPem_eq (h : Reads key cert der publicKey) :
    ofPem key cert =
      if Bytes.isInfix publicKey.info der then .ok ⟨key, cert, .ofCertificate der⟩ else .error .mismatch := by
  rw [StakingIdentity.ofPem_eq, h.cert, h.key]
  rfl

/-- A pair whose texts cannot be read is refused for what is wrong with them. -/
theorem reads_or_error :
    (∃ der publicKey, Reads key cert der publicKey) ∨
      ∃ fault, ofPem key cert = .error fault ∧ fault ≠ .mismatch := by
  cases hcert : certificateOf cert with
  | error fault =>
      refine .inr ⟨fault, by rw [ofPem, hcert]; rfl, ?_⟩
      rintro rfl
      unfold certificateOf at hcert
      split at hcert <;> cases hcert
  | ok der =>
      cases hkey : publicKeyOf key with
      | error fault => exact .inr ⟨.malformedKey fault, by rw [ofPem, hcert, hkey]; rfl, by rintro ⟨⟩⟩
      | ok publicKey => exact .inl ⟨der, publicKey, hcert, hkey⟩

theorem ofPem_eq_ok_iff {identity : StakingIdentity} :
    ofPem key cert = .ok identity ↔
      ∃ der publicKey place, Reads key cert der publicKey ∧ OccursAt publicKey.info der place ∧
        identity = ⟨key, cert, .ofCertificate der⟩ := by
  constructor
  · intro h
    rcases @reads_or_error key cert with ⟨der, publicKey, hreads⟩ | ⟨fault, hfault, -⟩
    · rw [hreads.ofPem_eq] at h
      split at h
      next hinfix =>
        obtain ⟨place, hplace⟩ := Bytes.infix_iff_exists_occursAt.mp (Bytes.isInfix_iff.mp hinfix)
        exact ⟨der, publicKey, place, hreads, hplace, (Except.ok.inj h).symm⟩
      next => cases h
    · cases h.symm.trans hfault
  · rintro ⟨der, publicKey, place, hreads, hplace, rfl⟩
    rw [hreads.ofPem_eq, if_pos]
    exact Bytes.isInfix_iff.mpr (Bytes.infix_iff_exists_occursAt.mpr ⟨place, hplace⟩)

theorem ofPem_eq_mismatch_iff :
    ofPem key cert = .error .mismatch ↔
      ∃ der publicKey, Reads key cert der publicKey ∧ ∀ place, ¬ OccursAt publicKey.info der place := by
  constructor
  · intro h
    rcases @reads_or_error key cert with ⟨der, publicKey, hreads⟩ | ⟨fault, hfault, hother⟩
    · refine ⟨der, publicKey, hreads, fun place hplace => ?_⟩
      cases h.symm.trans (ofPem_eq_ok_iff.mpr ⟨der, publicKey, place, hreads, hplace, rfl⟩)
    · cases h.symm.trans hfault
      exact absurd rfl hother
  · rintro ⟨der, publicKey, hreads, hnowhere⟩
    rw [hreads.ofPem_eq, if_neg]
    intro hinfix
    obtain ⟨place, hplace⟩ := Bytes.infix_iff_exists_occursAt.mp (Bytes.isInfix_iff.mp hinfix)
    exact hnowhere place hplace

/-- **Pairs.** A pair is accepted if and only if the info of its key occurs anywhere in the contents of its
certificate, and the id is that of the contents. They match if they are a certificate and the info occurs
where the field for its own key starts. So pairs that match are accepted, and pairs that are accepted match
if the contents are a certificate and the info occurs in them nowhere else. -/
theorem pair_holds_info_somewhere (key cert : String) :
    (∀ identity, ofPem key cert = .ok identity ↔
      ∃ der publicKey place, Reads key cert der publicKey ∧ OccursAt publicKey.info der place ∧
        identity = ⟨key, cert, .ofCertificate der⟩) ∧
    (ofPem key cert = .error .mismatch ↔
      ∃ der publicKey, Reads key cert der publicKey ∧ ∀ place, ¬ OccursAt publicKey.info der place) ∧
    (Matches key cert ↔
      ∃ der publicKey, Reads key cert der publicKey ∧
        ∃ span ∈ Certificate.keySpan? der, OccursAt publicKey.info der span.start) ∧
    (Matches key cert → ∃ identity, ofPem key cert = .ok identity) ∧
    ∀ der publicKey identity, ofPem key cert = .ok identity → Reads key cert der publicKey →
      ∀ span ∈ Certificate.keySpan? der,
        (∀ place, OccursAt publicKey.info der place → place = span.start) → Matches key cert := by
  have hmatches : Matches key cert ↔
      ∃ der publicKey, Reads key cert der publicKey ∧
        ∃ span ∈ Certificate.keySpan? der, OccursAt publicKey.info der span.start := by
    constructor
    · intro h
      obtain ⟨der, publicKey, -, hreads, -⟩ := id h
      exact ⟨der, publicKey, hreads, hreads.matches_iff.mp h⟩
    · rintro ⟨der, publicKey, hreads, hplace⟩
      exact hreads.matches_iff.mpr hplace
  refine ⟨fun _ => ofPem_eq_ok_iff, ofPem_eq_mismatch_iff, hmatches, ?_, ?_⟩
  · intro h
    obtain ⟨der, publicKey, hreads, span, -, hplace⟩ := hmatches.mp h
    exact ⟨_, ofPem_eq_ok_iff.mpr ⟨der, publicKey, span.start, hreads, hplace, rfl⟩⟩
  · intro der publicKey identity haccepted hreads span hspan honly
    obtain ⟨der', publicKey', place, hreads', hplace, -⟩ := ofPem_eq_ok_iff.mp haccepted
    obtain ⟨rfl, rfl⟩ := hreads.unique hreads'
    rw [honly place hplace] at hplace
    exact hreads.matches_iff.mpr ⟨span, hspan, hplace⟩

/-! ### One key and three certificates -/

/-- A certificate of another key, with the info of this one in an extension. -/
def borrowingCert : List UInt8 :=
  [0x308201DB30820181A00302010202145B599674D78D791E6D494CBF065D0BE332,
    0xBBFC5B300A06082A8648CE3D0403023010310E300C06035504030C056E6F6465,
    0x32301E170D3236313132303036313032385A170D333631313137303631303238,
    0x5A3010310E300C06035504030C056E6F6465323059301306072A8648CE3D0201,
    0x06082A8648CE3D0301070342000401F76ECD27D0EF488FC5F6C1FD2210646942,
    0xE22227DD2872BA18CAA457162D892E9BCC5173FB0ED15EF7BE4AA0DC8D0D550B,
    0xFF9A4D3968CBACCE7CB8845C490CA381B83081B5301D0603551D0E041604143C,
    0xA6F03EC47B667A5E41362803B6CC3EA7138DA7301F0603551D23041830168014,
    0x3CA6F03EC47B667A5E41362803B6CC3EA7138DA7300F0603551D130101FF0405].flatMap (Bytes.ofNat 32) ++
    Bytes.ofNat 14 0x30030101FF306206032A0304045B ++
    p256Info ++
    [0x300A06082A8648CE3D040302034800304502204A45E796B55AB1F8C47DB7EA5B,
    0x3B0C780B3AC7E663D6932613B010D320A31FB5022100B81DEE10120E7D630A12].flatMap (Bytes.ofNat 32) ++
    Bytes.ofNat 22 0x0E315C87742418B130DF095BF6D57AE76A90D5483143

theorem pair_holds_info_somewhere_of_p256Pair :
    Certificate.keySpan? p256Cert = some ⟨115, 117, 206⟩ ∧
    (∀ place, OccursAt p256Info p256Cert place → place = 115) ∧
    Matches p256Pair.key p256Pair.cert ∧
    ∃ identity, ofPem p256Pair.key p256Pair.cert = .ok identity := by
  have hspan : Certificate.keySpan? p256Cert = some ⟨115, 117, 206⟩ := by decide +kernel
  have honly : ∀ place, OccursAt p256Info p256Cert place → place = 115 := fun place hplace =>
    hplace.eq_of_forall_tails (by decide) (by decide +kernel)
  obtain ⟨publicKey, hkey, hinfo⟩ := publicKeyOf_p256Pair
  have hmatches : Matches p256Pair.key p256Pair.cert := by
    refine (pair_holds_info_somewhere p256Pair.key p256Pair.cert).2.2.2.2 p256Cert publicKey p256Pair
      ofPem_p256Pair (reads_armor hkey p256Cert) _ hspan ?_
    rwa [hinfo]
  exact ⟨hspan, honly, hmatches,
    (pair_holds_info_somewhere p256Pair.key p256Pair.cert).2.2.2.1 hmatches⟩

/-- The key is accepted with the certificate of another, and with its own info that is no certificate. -/
theorem ofPem_of_borrowedInfo :
    (∃ identity, ofPem p256Pair.key (Pem.armor "CERTIFICATE" borrowingCert) = .ok identity) ∧
    (∃ span ∈ Certificate.keySpan? borrowingCert, span.bytesIn borrowingCert ≠ p256Info) ∧
    ¬ Matches p256Pair.key (Pem.armor "CERTIFICATE" borrowingCert) ∧
    (∃ identity, ofPem p256Pair.key (Pem.armor "CERTIFICATE" p256Info) = .ok identity) ∧
    Certificate.keySpan? p256Info = none ∧
    ¬ Matches p256Pair.key (Pem.armor "CERTIFICATE" p256Info) := by
  obtain ⟨publicKey, hkey, hinfo⟩ := publicKeyOf_p256Pair
  have haccepted : ∀ der, p256Info <:+: der →
      ∃ identity, ofPem p256Pair.key (Pem.armor "CERTIFICATE" der) = .ok identity := by
    intro der hinfix
    obtain ⟨place, hplace⟩ := Bytes.infix_iff_exists_occursAt.mp hinfix
    rw [← hinfo] at hplace
    exact ⟨_, ofPem_eq_ok_iff.mpr ⟨der, publicKey, place, reads_armor hkey der, hplace, rfl⟩⟩
  have hmatches : ∀ der, Matches p256Pair.key (Pem.armor "CERTIFICATE" der) ↔
      ∃ span ∈ Certificate.keySpan? der, OccursAt p256Info der span.start := by
    intro der
    rw [(reads_armor hkey der).matches_iff, hinfo]
  rw [hmatches, hmatches]
  exact ⟨haccepted _ (Bytes.isInfix_iff.mp (by decide +kernel)), by decide +kernel, by decide +kernel,
    haccepted _ List.infix_rfl, by decide +kernel, by decide +kernel⟩

end StakingIdentity

end Localnet
