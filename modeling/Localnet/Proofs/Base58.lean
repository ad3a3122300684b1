import Localnet.Base58
import Mathlib.Data.List.TakeWhile
import Mathlib.Data.Nat.Digits.Lemmas

/-!
# Base58

A numeral is determined by its number and by the zeros that it starts with. Bytes and letters are two
numerals for one number with as many zeros in front, so that each text over the alphabet stands for one
string of bytes and each string of bytes has one text.
-/

namespace Localnet.Base58

theorem digits_eq {base : Nat} (hbase : 1 < base) (n : Nat) : digits base n = Nat.digits base n := by
  induction n using Nat.strongRecOn with
  | ind n ih =>
      rw [digits]
      by_cases hn : n = 0
      · simp [hn]
      · have hpos : 0 < n := Nat.pos_of_ne_zero hn
        have hmore : ¬ (n = 0 ∨ base < 2) := by omega
        rw [dif_neg hmore, Nat.digits_def' hbase hpos, ih _ (Nat.div_lt_self hpos hbase)]

theorem ofDigits_eq (base : Nat) (l : List Nat) : ofDigits base l = Nat.ofDigits base l := by
  induction l with
  | nil => rfl
  | cons digit rest ih => rw [ofDigits, Nat.ofDigits_cons, ih]

/-! ### Numerals, the highest digit first -/

def number (base : Nat) (numeral : List Nat) : Nat := ofDigits base numeral.reverse

/-- How many zeros a numeral starts with. -/
def leadingZeros (numeral : List Nat) : Nat := (numeral.takeWhile (· == 0)).length

/-- The numeral of a number with some zeros in front. -/
def numeral (base zeros n : Nat) : List Nat := List.replicate zeros 0 ++ (digits base n).reverse

variable {base : Nat}

theorem number_replicate_append (zeros : Nat) (rest : List Nat) :
    number base (List.replicate zeros 0 ++ rest) = number base rest := by
  simp only [number, ofDigits_eq, List.reverse_append, List.reverse_replicate, Nat.ofDigits_append,
    Nat.ofDigits_replicate_zero, Nat.mul_zero, Nat.add_zero]

theorem number_numeral (hbase : 1 < base) (zeros n : Nat) : number base (numeral base zeros n) = n := by
  rw [numeral, number_replicate_append, number, List.reverse_reverse, ofDigits_eq, digits_eq hbase,
    Nat.ofDigits_digits]

theorem lt_of_mem_numeral (hbase : 1 < base) {zeros n digit : Nat} (h : digit ∈ numeral base zeros n) :
    digit < base := by
  rcases List.mem_append.mp h with h | h
  · rw [List.eq_of_mem_replicate h]
    omega
  · rw [List.mem_reverse, digits_eq hbase] at h
    exact Nat.digits_lt_base hbase h

/-- The highest digit of a number is not zero. -/
theorem leadingZeros_numeral (hbase : 1 < base) (zeros n : Nat) :
    leadingZeros (numeral base zeros n) = zeros := by
  have hhead : ((digits base n).reverse).takeWhile (· == 0) = [] := by
    by_cases hn : n = 0
    · rw [hn, digits]
      simp
    · have hne : Nat.digits base n ≠ [] := Nat.digits_ne_nil_iff_ne_zero.mpr hn
      have hlast := Nat.getLast_digit_ne_zero base hn
      rw [digits_eq hbase, ← List.dropLast_append_getLast hne, List.reverse_append]
      simp [hlast]
  have hzeros : ∀ digit ∈ List.replicate zeros 0, (digit == 0) = true := by
    intro digit hdigit
    simp [List.eq_of_mem_replicate hdigit]
  rw [leadingZeros, numeral, List.takeWhile_append_of_pos hzeros, hhead, List.append_nil,
    List.length_replicate]

/-- A numeral is its leading zeros and the digits of its number. -/
theorem numeral_number (hbase : 1 < base) {l : List Nat} (hl : ∀ digit ∈ l, digit < base) :
    numeral base (leadingZeros l) (number base l) = l := by
  -- behind the zeros the first digit is not zero, so the digits are those of a number
  have hzeros : l.takeWhile (· == 0) = List.replicate (leadingZeros l) 0 := by
    refine List.eq_replicate_iff.mpr ⟨rfl, fun digit hdigit => ?_⟩
    simpa using List.mem_takeWhile_imp hdigit
  have hsplit : l = List.replicate (leadingZeros l) 0 ++ l.dropWhile (· == 0) := by
    rw [← hzeros, List.takeWhile_append_dropWhile]
  have hnumber : number base l = number base (l.dropWhile (· == 0)) := by
    calc number base l
        = number base (List.replicate (leadingZeros l) 0 ++ l.dropWhile (· == 0)) := by rw [← hsplit]
      _ = number base (l.dropWhile (· == 0)) := number_replicate_append _ _
  have hrest : digits base (number base (l.dropWhile (· == 0))) = (l.dropWhile (· == 0)).reverse := by
    rw [number, digits_eq hbase, ofDigits_eq]
    refine Nat.digits_ofDigits base hbase _ ?_ ?_
    · intro digit hdigit
      exact hl digit ((List.dropWhile_sublist _).mem (List.mem_reverse.mp hdigit))
    · intro hne
      rw [List.getLast_reverse]
      simpa using List.head_dropWhile_not (· == 0) (List.reverse_ne_nil_iff.mp hne)
  rw [numeral, hnumber, hrest, List.reverse_reverse]
  exact hsplit.symm

/-! ### Letters -/

theorem digit?_letter : ∀ digit < 58, digit? (letter digit) = some digit := by
  decide +kernel

theorem letter_zero : letter 0 = '1' := by
  decide +kernel

theorem digit?_eq_some_iff {c : Char} {digit : Nat} :
    digit? c = some digit ↔ digit < 58 ∧ letter digit = c := by
  constructor
  · intro h
    obtain ⟨hlt, hget, -⟩ := List.idxOf?_eq_some_iff.mp h
    have hletter : letter digit = c := by rw [letter, List.getElem?_eq_getElem hlt, Option.getD_some, hget]
    exact ⟨hlt, hletter⟩
  · rintro ⟨hlt, rfl⟩
    exact digit?_letter digit hlt

theorem digit?_eq_none_iff {c : Char} : digit? c = none ↔ c ∉ alphabet :=
  List.idxOf?_eq_none_iff

/-- The fault of a character that is no letter. -/
def faultAt (index : Nat) (c : Char) : Fault :=
  if c.toNat < 0x80 then .invalid c index else .nonAscii index

theorem textDigits_map_letter {index : Nat} {ds : List Nat} (hds : ∀ digit ∈ ds, digit < 58) :
    textDigits index (ds.map letter) = .ok ds := by
  induction ds generalizing index with
  | nil => rfl
  | cons digit rest ih =>
      obtain ⟨hdigit, hrest⟩ := List.forall_mem_cons.mp hds
      rw [List.map_cons, textDigits, digit?_eq_some_iff.mpr ⟨hdigit, rfl⟩, ih hrest]
      rfl

/-- The first character that is no letter is the one that is reported. -/
theorem textDigits_append_cons {index : Nat} {before after : List Char} {c : Char}
    (hbefore : ∀ d ∈ before, d ∈ alphabet) (hc : c ∉ alphabet) :
    textDigits index (before ++ c :: after) = .error (faultAt (index + before.length) c) := by
  induction before generalizing index with
  | nil =>
      rw [List.nil_append, textDigits, digit?_eq_none_iff.mpr hc]
      rfl
  | cons d rest ih =>
      obtain ⟨hd, hrest⟩ := List.forall_mem_cons.mp hbefore
      have hindex : index + 1 + rest.length = index + (d :: rest).length := by
        rw [List.length_cons]
        omega
      rw [List.cons_append, textDigits, ih hrest, hindex]
      cases hdigit : digit? d with
      | none => exact absurd hd (digit?_eq_none_iff.mp hdigit)
      | some digit => rfl

/-- A text has letters only, or a first character that is none. -/
theorem letters_or_first (text : List Char) :
    (∃ ds : List Nat, (∀ digit ∈ ds, digit < 58) ∧ text = ds.map letter) ∨
      ∃ before c after, text = before ++ c :: after ∧ (∀ d ∈ before, d ∈ alphabet) ∧ c ∉ alphabet := by
  induction text with
  | nil => exact .inl ⟨[], by simp, rfl⟩
  | cons c rest ih =>
      cases hc : digit? c with
      | none => exact .inr ⟨[], c, rest, rfl, by simp, digit?_eq_none_iff.mp hc⟩
      | some digit =>
          obtain ⟨hlt, hletter⟩ := digit?_eq_some_iff.mp hc
          have hmem : c ∈ alphabet := by
            by_contra hno
            rw [digit?_eq_none_iff.mpr hno] at hc
            cases hc
          rcases ih with ⟨ds, hds, rfl⟩ | ⟨before, d, after, rfl, hbefore, hd⟩
          · exact .inl ⟨digit :: ds, List.forall_mem_cons.mpr ⟨hlt, hds⟩, by rw [List.map_cons, hletter]⟩
          · exact .inr ⟨c :: before, d, after, rfl, List.forall_mem_cons.mpr ⟨hmem, hbefore⟩, hd⟩

theorem letter_mem_alphabet {digit : Nat} (h : digit < 58) : letter digit ∈ alphabet := by
  by_contra hno
  rw [← digit?_eq_none_iff, digit?_letter digit h] at hno
  cases hno

theorem map_idxOf_letter {ds : List Nat} (hds : ∀ digit ∈ ds, digit < 58) :
    (ds.map letter).map alphabet.idxOf = ds := by
  rw [List.map_map]
  refine (List.map_congr_left fun digit hdigit => ?_).trans (List.map_id _)
  have hdigit : alphabet.idxOf? (letter digit) = some digit := digit?_letter digit (hds digit hdigit)
  rw [Function.comp_apply, List.idxOf_eq_getD_idxOf?, hdigit]
  rfl

theorem takeWhile_map_letter {ds : List Nat} (hds : ∀ digit ∈ ds, digit < 58) :
    ((ds.map letter).takeWhile (· == '1')).length = leadingZeros ds := by
  have hall : ∀ digit < 58, (letter digit == '1') = (digit == 0) := by
    intro digit hlt
    rw [← letter_zero, Bool.eq_iff_iff, beq_iff_eq, beq_iff_eq]
    constructor
    · intro heq
      have hdigit := digit?_letter digit hlt
      rw [heq, digit?_letter 0 (by decide)] at hdigit
      exact (Option.some.inj hdigit).symm
    · rintro rfl
      rfl
  induction ds with
  | nil => rfl
  | cons digit rest ih =>
      obtain ⟨hdigit, hrest⟩ := List.forall_mem_cons.mp hds
      have ih := ih hrest
      rw [leadingZeros] at ih ⊢
      rw [List.map_cons, List.takeWhile_cons, List.takeWhile_cons, hall digit hdigit]
      by_cases hzero : (digit == 0) = true
      · rw [if_pos hzero, if_pos hzero, List.length_cons, List.length_cons, ih]
      · rw [if_neg hzero, if_neg hzero]
        rfl

/-! ### Bytes -/

theorem number_map_toNat (bytes : List UInt8) : number 256 (bytes.map UInt8.toNat) = Bytes.toNat bytes := by
  rw [number, Bytes.toNat]
  induction bytes using List.reverseRecOn with
  | nil => rfl
  | append_singleton bytes byte ih =>
      rw [List.map_append, List.reverse_append, List.foldl_append, ← ih]
      simp only [List.map_cons, List.map_nil, List.reverse_singleton, List.singleton_append, ofDigits,
        List.foldl_cons, List.foldl_nil]
      omega

theorem takeWhile_isZero (bytes : List UInt8) :
    (bytes.takeWhile isZero).length = leadingZeros (bytes.map UInt8.toNat) := by
  have hzero : ((· == 0) ∘ UInt8.toNat) = isZero := by
    funext byte
    rw [Bool.eq_iff_iff]
    simp [isZero, ← UInt8.toNat_inj]
  rw [leadingZeros, List.takeWhile_map, List.length_map, hzero]

theorem encode_eq (bytes : List UInt8) :
    encode bytes = String.ofList
      ((numeral 58 (leadingZeros (bytes.map UInt8.toNat)) (Bytes.toNat bytes)).map letter) := by
  have hone : (bytes.takeWhile isZero).map (fun _ => '1') =
      (List.replicate (leadingZeros (bytes.map UInt8.toNat)) 0).map letter := by
    rw [List.map_const', takeWhile_isZero, List.map_replicate, letter_zero]
  rw [encode, numeral, List.map_append, List.map_reverse, hone]

/-- A text over the alphabet that has the number of some bytes, and as many leading ones as they have
leading zeros. -/
structure Writes (text : String) (bytes : List UInt8) : Prop where
  letters : ∀ c ∈ text.toList, c ∈ alphabet
  ones : (text.toList.takeWhile (· == '1')).length = (bytes.takeWhile isZero).length
  number : number 58 (text.toList.map alphabet.idxOf) = Bytes.toNat bytes

theorem writes_iff {text : String} {bytes : List UInt8} : Writes text bytes ↔ text = encode bytes := by
  constructor
  · intro h
    rcases letters_or_first text.toList with ⟨ds, hds, htext⟩ | ⟨before, c, after, htext, -, hc⟩
    · have hones := h.ones
      have hnumber := h.number
      rw [htext, takeWhile_map_letter hds, takeWhile_isZero] at hones
      rw [htext, map_idxOf_letter hds] at hnumber
      rw [encode_eq, ← hones, ← hnumber, numeral_number (by decide) hds, ← htext, String.ofList_toList]
    · exact absurd (h.letters c (by rw [htext]; simp)) hc
  · rintro rfl
    have hds : ∀ digit ∈ numeral 58 (leadingZeros (bytes.map UInt8.toNat)) (Bytes.toNat bytes),
        digit < 58 := fun _ => lt_of_mem_numeral (by decide)
    rw [encode_eq]
    refine ⟨?_, ?_, ?_⟩
    · intro c hc
      rw [String.toList_ofList] at hc
      obtain ⟨digit, hdigit, rfl⟩ := List.mem_map.mp hc
      exact letter_mem_alphabet (hds digit hdigit)
    · rw [String.toList_ofList, takeWhile_map_letter hds, leadingZeros_numeral (by decide),
        takeWhile_isZero]
    · rw [String.toList_ofList, map_idxOf_letter hds, number_numeral (by decide)]

theorem decode_map_letter {ds : List Nat} (hds : ∀ digit ∈ ds, digit < 58) :
    decode (.ofList (ds.map letter)) =
      .ok ((numeral 256 (leadingZeros ds) (number 58 ds)).map UInt8.ofNat) := by
  have hzeros : (ds.takeWhile (· == 0)).map (fun _ => (0 : UInt8)) =
      (List.replicate (leadingZeros ds) 0).map UInt8.ofNat := by
    rw [List.map_const', List.map_replicate]
    rfl
  rw [numeral, List.map_append, List.map_reverse, ← hzeros, decode, String.toList_ofList,
    textDigits_map_letter hds]
  rfl

theorem map_ofNat_toNat {l : List Nat} (h : ∀ digit ∈ l, digit < 256) :
    (l.map UInt8.ofNat).map UInt8.toNat = l := by
  rw [List.map_map]
  refine (List.map_congr_left fun digit hdigit => ?_).trans (List.map_id _)
  exact UInt8.toNat_ofNat_of_lt' (h digit hdigit)

theorem decode_encode (bytes : List UInt8) : decode (encode bytes) = .ok bytes := by
  have hbytes : ∀ digit ∈ bytes.map UInt8.toNat, digit < 256 := by
    intro digit hdigit
    obtain ⟨byte, -, rfl⟩ := List.mem_map.mp hdigit
    exact byte.toNat_lt
  rw [encode_eq, decode_map_letter fun _ => lt_of_mem_numeral (by decide),
    leadingZeros_numeral (by decide), number_numeral (by decide), ← number_map_toNat,
    numeral_number (by decide) hbytes, List.map_map]
  congr 1
  exact (List.map_congr_left fun byte _ => UInt8.ofNat_toNat).trans (List.map_id _)

theorem eq_encode_of_decode {text : String} {bytes : List UInt8} (h : decode text = .ok bytes) :
    text = encode bytes := by
  rcases letters_or_first text.toList with ⟨ds, hds, htext⟩ | ⟨before, c, after, htext, hbefore, hc⟩
  · obtain rfl : text = .ofList (ds.map letter) := by rw [← htext, String.ofList_toList]
    rw [decode_map_letter hds] at h
    obtain rfl := Except.ok.inj h
    have hmap : ((numeral 256 (leadingZeros ds) (number 58 ds)).map UInt8.ofNat).map UInt8.toNat =
        numeral 256 (leadingZeros ds) (number 58 ds) :=
      map_ofNat_toNat fun _ => lt_of_mem_numeral (by decide)
    rw [encode_eq, ← number_map_toNat, hmap, leadingZeros_numeral (by decide),
      number_numeral (by decide), numeral_number (by decide) hds]
  · rw [decode, htext, textDigits_append_cons hbefore hc] at h
    cases h

theorem decode_eq_ok_iff {text : String} {bytes : List UInt8} :
    decode text = .ok bytes ↔ text = encode bytes :=
  ⟨eq_encode_of_decode, fun h => h ▸ decode_encode bytes⟩

theorem decode_eq_error_iff {text : String} {fault : Fault} :
    decode text = .error fault ↔
      ∃ before c after, text.toList = before ++ c :: after ∧ (∀ d ∈ before, d ∈ alphabet) ∧
        c ∉ alphabet ∧ fault = faultAt before.length c := by
  constructor
  · intro h
    rcases letters_or_first text.toList with ⟨ds, hds, htext⟩ | ⟨before, c, after, htext, hbefore, hc⟩
    · rw [← @String.ofList_toList text, htext, decode_map_letter hds] at h
      cases h
    · rw [decode, htext, textDigits_append_cons hbefore hc, Nat.zero_add] at h
      exact ⟨before, c, after, htext, hbefore, hc, (Except.error.inj h).symm⟩
  · rintro ⟨before, c, after, htext, hbefore, hc, rfl⟩
    rw [decode, htext, textDigits_append_cons hbefore hc, Nat.zero_add]
    rfl

end Localnet.Base58
