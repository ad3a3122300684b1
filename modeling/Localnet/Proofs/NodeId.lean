import Localnet.NodeId
import Localnet.Proofs.Base58

/-!
# The text of a node id

An id has one text, and no other text is read as that id. Whatever else is read is refused for the first
of four reasons: its label, a character that is no letter of base58, its length, its checksum.
-/

namespace Localnet.NodeId

/-- What a text is, by what reading it comes to. -/
def Reads (text : String) : Except Fault NodeId → Prop
  | .ok id => text = toString id
  | .error .missingLabel => ¬ textLabel.toList <+: text.toList
  | .error (.base58 fault) =>
    ∃ before c after, text.toList = textLabel.toList ++ before ++ c :: after ∧
      (∀ d ∈ before, d ∈ Base58.alphabet) ∧ c ∉ Base58.alphabet ∧
      fault = Base58.faultAt before.length c
  | .error (.length count) =>
    ∃ body payload, text = textLabel ++ body ∧ Base58.Writes body payload ∧
      payload.length = count ∧ count ≠ 24
  | .error .checksum =>
    ∃ body payload, text = textLabel ++ body ∧ Base58.Writes body payload ∧
      payload.length = 24 ∧ payload.drop 20 ≠ checksum (payload.take 20)

theorem length_checksum (bytes : List UInt8) : (checksum bytes).length = 4 := by
  rw [checksum, List.length_drop, Digest.Variant.length_digest]
  rfl

theorem ofPayload_eq_ok_iff {payload : List UInt8} {id : NodeId} :
    ofPayload payload = .ok id ↔ payload = id.bytes ++ checksum id.bytes := by
  constructor
  · intro h
    unfold ofPayload at h
    split at h
    next hlength =>
      split at h
      next hchecksum =>
        obtain rfl := Except.ok.inj h
        rw [← hchecksum, List.take_append_drop]
      next => cases h
    next => cases h
  · intro h
    have htake : payload.take 20 = id.bytes := by rw [h, List.take_left' id.length_eq]
    have hdrop : payload.drop 20 = checksum id.bytes := by rw [h, List.drop_left' id.length_eq]
    have hlength : payload.length = 24 := by
      rw [h, List.length_append, id.length_eq, length_checksum]
    unfold ofPayload
    rw [dif_pos hlength, if_pos (by rw [hdrop, htake])]
    cases id
    simp [htake]

theorem ofPayload_eq_error_iff {payload : List UInt8} {fault : Fault} :
    ofPayload payload = .error fault ↔
      payload.length ≠ 24 ∧ fault = .length payload.length ∨
        payload.length = 24 ∧ payload.drop 20 ≠ checksum (payload.take 20) ∧ fault = .checksum := by
  unfold ofPayload
  by_cases hlength : payload.length = 24
  · by_cases hchecksum : payload.drop 20 = checksum (payload.take 20)
    · simp [hlength, hchecksum]
    · simp [hlength, hchecksum, eq_comm]
  · simp [hlength, eq_comm]

theorem parse_label_append (body : String) :
    parse (textLabel ++ body) =
      match Base58.decode body with
      | .ok payload => ofPayload payload
      | .error fault => .error (.base58 fault) := by
  have hlabel : textLabel.toList.isPrefixOf (textLabel ++ body).toList = true := by
    rw [String.toList_append]
    exact List.isPrefixOf_iff_prefix.mpr (List.prefix_append _ _)
  have hbody : String.ofList ((textLabel ++ body).toList.drop textLabel.length) = body := by
    rw [String.toList_append, List.drop_left' String.length_toList, String.ofList_toList]
  cases hdecode : Base58.decode body with
  | ok payload => simp only [parse, if_pos hlabel, hbody, hdecode]
  | error fault => simp only [parse, if_pos hlabel, hbody, hdecode]

theorem parse_of_not_label {text : String} (h : ¬ textLabel.toList <+: text.toList) :
    parse text = .error .missingLabel := by
  unfold parse
  rw [if_neg fun hlabel => h (List.isPrefixOf_iff_prefix.mp hlabel)]

theorem exists_body {text : String} (h : textLabel.toList <+: text.toList) :
    ∃ body, text = textLabel ++ body := by
  obtain ⟨body, hbody⟩ := h
  refine ⟨.ofList body, String.toList_injective ?_⟩
  rw [String.toList_append, String.toList_ofList, hbody]

/-- A text with the label is what its payload is. -/
theorem reads_label_append_iff {body : String} {outcome : Except Fault NodeId} :
    Reads (textLabel ++ body) outcome ↔
      (∃ payload, Base58.decode body = .ok payload ∧ ofPayload payload = outcome) ∨
        ∃ fault, Base58.decode body = .error fault ∧ outcome = .error (.base58 fault) := by
  cases outcome with
  | ok id =>
      have htext : toString id = textLabel ++ Base58.encode (id.bytes ++ checksum id.bytes) := rfl
      simp [Reads, htext, ofPayload_eq_ok_iff, Base58.decode_eq_ok_iff]
  | error fault =>
      cases fault with
      | missingLabel => simp [Reads, ofPayload_eq_error_iff]
      | base58 fault =>
          have hfault : Reads (textLabel ++ body) (.error (.base58 fault)) ↔
              Base58.decode body = .error fault := by
            rw [Base58.decode_eq_error_iff]
            simp only [Reads, String.toList_append, List.append_assoc, List.append_cancel_left_eq]
          simp [hfault, ofPayload_eq_error_iff]
      | length count =>
          have hlength : ∀ payload, ofPayload payload = .error (.length count) ↔
              payload.length = count ∧ count ≠ 24 := by
            intro payload
            rw [ofPayload_eq_error_iff]
            grind
          simp [Reads, hlength, Base58.writes_iff, Base58.decode_eq_ok_iff]
      | checksum =>
          simp [Reads, ofPayload_eq_error_iff, Base58.writes_iff, Base58.decode_eq_ok_iff]

/-- Only a missing label is found in a text without it. -/
theorem label_prefix_of_reads {text : String} {outcome : Except Fault NodeId} (h : Reads text outcome)
    (hne : outcome ≠ .error .missingLabel) : textLabel.toList <+: text.toList := by
  have hlabel : ∀ body, textLabel.toList <+: (textLabel ++ body).toList := by
    intro body
    rw [String.toList_append]
    exact List.prefix_append _ _
  cases outcome with
  | ok id =>
      have htext : text = textLabel ++ Base58.encode (id.bytes ++ checksum id.bytes) := h
      rw [htext]
      exact hlabel _
  | error fault =>
      cases fault with
      | missingLabel => exact absurd rfl hne
      | base58 fault =>
          obtain ⟨before, c, after, htext, -⟩ := h
          rw [htext, List.append_assoc]
          exact List.prefix_append _ _
      | length count =>
          obtain ⟨body, -, rfl, -⟩ := h
          exact hlabel body
      | checksum =>
          obtain ⟨body, -, rfl, -⟩ := h
          exact hlabel body

/-- **A text is read as an id if and only if it is the text of that id, and every other text is refused
for what it lacks.** -/
theorem parse_eq_iff_reads (text : String) (outcome : Except Fault NodeId) :
    parse text = outcome ↔ Reads text outcome := by
  by_cases hlabel : textLabel.toList <+: text.toList
  · obtain ⟨body, rfl⟩ := exists_body hlabel
    rw [parse_label_append, reads_label_append_iff]
    cases hbody : Base58.decode body with
    | ok payload => simp
    | error fault => simp [eq_comm]
  · rw [parse_of_not_label hlabel]
    constructor
    · rintro rfl
      exact hlabel
    · intro h
      by_contra hne
      exact hlabel (label_prefix_of_reads h (Ne.symm hne))

end Localnet.NodeId
