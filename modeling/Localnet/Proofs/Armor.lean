import Localnet.Pem.Armor
import Localnet.Staking
import Localnet.Proofs.Bytes

/-!
# Certificates that are written

What is written as a certificate is read as what it was written from, whatever bytes that are and wherever
its lines were cut: the line ends are blanks to the reader, and a line of symbols is no mark.
-/

namespace Localnet

namespace Base64

open String (utf8EncodeChar)
open Pem (utf8 isLineEnd)

/-- The bits of the symbols that spell some bytes, without the padding. -/
def sextets : List UInt8 → List Nat
  | a :: b :: c :: rest =>
    let n := Bytes.toNat [a, b, c]
    n >>> 18 :: n >>> 12 % 64 :: n >>> 6 % 64 :: n % 64 :: sextets rest
  | [a, b] =>
    let n := Bytes.toNat [a, b] * 4
    [n >>> 12, n >>> 6 % 64, n % 64]
  | [a] =>
    let n := a.toNat * 16
    [n >>> 6, n % 64]
  | [] => []

theorem bytes_sextets (data : List UInt8) : bytes (sextets data) = data := by
  induction data using sextets.induct with
  | case1 a b c rest ih =>
      have hjoin : ∀ n : Nat, ((n >>> 18 * 64 + n >>> 12 % 64) * 64 + n >>> 6 % 64) * 64 + n % 64 = n := by
        simp only [Nat.shiftRight_eq_div_pow]
        omega
      simp only [sextets, bytes, ih, hjoin]
      exact congrArg (· ++ rest) (Bytes.ofNat_toNat [a, b, c])
  | case2 a b =>
      have hjoin : ∀ n : Nat, ((n * 4) >>> 12 * 64 + (n * 4) >>> 6 % 64) * 64 + n * 4 % 64 = n * 4 := by
        simp only [Nat.shiftRight_eq_div_pow]
        omega
      simp only [sextets, bytes, hjoin, Nat.mul_div_cancel _ (show 0 < 4 by decide)]
      exact Bytes.ofNat_toNat [a, b]
  | case3 a =>
      have hjoin : ∀ n : Nat, (n * 16) >>> 6 * 64 + n * 16 % 64 = n * 16 := by
        simp only [Nat.shiftRight_eq_div_pow]
        omega
      simp only [sextets, bytes, hjoin, Nat.mul_div_cancel _ (show 0 < 16 by decide)]
      simpa [Bytes.toNat] using Bytes.ofNat_toNat [a]
  | case4 => rfl

theorem lt_of_mem_sextets (data : List UInt8) : ∀ bits ∈ sextets data, bits < 64 := by
  induction data using sextets.induct with
  | case1 a b c rest ih =>
      have ha := a.toNat_lt
      have hb := b.toNat_lt
      have hc := c.toNat_lt
      simp only [sextets, List.forall_mem_cons, Bytes.toNat, List.foldl, Nat.shiftRight_eq_div_pow]
      refine ⟨?_, Nat.mod_lt _ (by decide), Nat.mod_lt _ (by decide), Nat.mod_lt _ (by decide), ih⟩
      omega
  | case2 a b =>
      have ha := a.toNat_lt
      have hb := b.toNat_lt
      simp only [sextets, List.forall_mem_cons, Bytes.toNat, List.foldl, Nat.shiftRight_eq_div_pow]
      refine ⟨?_, Nat.mod_lt _ (by decide), Nat.mod_lt _ (by decide), List.forall_mem_nil _⟩
      omega
  | case3 a =>
      have ha := a.toNat_lt
      simp only [sextets, List.forall_mem_cons, Nat.shiftRight_eq_div_pow]
      refine ⟨?_, Nat.mod_lt _ (by decide), List.forall_mem_nil _⟩
      omega
  | case4 => exact List.forall_mem_nil _

/-- The byte that a symbol is in a text. -/
def letter (bits : Nat) : UInt8 := (symbol bits).toUInt8

theorem letter_spec : ∀ bits < 64, utf8EncodeChar (symbol bits) = [letter bits] ∧
    letter bits ≠ padding ∧ symbol? (letter bits) = some bits ∧ ¬ isBlank (letter bits) ∧
    symbol bits ≠ '-' ∧ ¬ isLineEnd (symbol bits) := by
  decide +kernel

theorem lenientSymbol_letter {bits : Nat} (h : bits < 64) :
    lenientSymbol (letter bits) = .ok (some bits) := by
  obtain ⟨-, hpadding, hsymbol, -⟩ := letter_spec bits h
  rw [lenientSymbol, if_neg hpadding, hsymbol]

theorem utf8_symbol_cons {bits : Nat} (h : bits < 64) (text : List Char) :
    utf8 (symbol bits :: text) = letter bits :: utf8 text := by
  rw [utf8, List.flatMap_cons, (letter_spec bits h).1]
  rfl

theorem lenientBlocks_cons {byte : UInt8} {slot : Option Nat} (hslot : lenientSymbol byte = .ok slot)
    {block : List (Option Nat)} (hroom : block.length ≠ 8) (rest : List UInt8) :
    lenientBlocks (byte :: rest) block = lenientBlocks rest (block ++ [slot]) := by
  rw [lenientBlocks, hslot]
  exact if_neg hroom

theorem mapM_id_map_some (bits : List Nat) : (bits.map some).mapM id = some bits := by
  induction bits with
  | nil => rfl
  | cons bit bits ih => simp [ih]

theorem lenientBlocks_full {byte : UInt8} {slot : Option Nat} (hslot : lenientSymbol byte = .ok slot)
    {full : List Nat} (hfull : full.length = 8) (rest : List UInt8) :
    lenientBlocks (byte :: rest) (full.map some) = (lenientBlocks rest [slot]).map (full ++ ·) := by
  have hlength : (full.map some).length = 8 := (List.length_map some).trans hfull
  rw [lenientBlocks, hslot]
  simp only [bind, Except.bind, hlength, if_true, mapM_id_map_some]
  cases lenientBlocks rest [slot] <;> rfl

/-- The sizes that a block has between two groups of four. -/
def WholeGroups (full : List Nat) : Prop := full.length = 0 ∨ full.length = 4 ∨ full.length = 8

/-- Four symbols are read into a block that has room for them, or into a new one. -/
theorem lenientBlocks_four {w x y z : UInt8} {p q r s : Option Nat} {rest : List UInt8} {bits : List Nat}
    (hw : lenientSymbol w = .ok p) (hx : lenientSymbol x = .ok q) (hy : lenientSymbol y = .ok r)
    (hz : lenientSymbol z = .ok s)
    (hrest : ∀ full : List Nat, full.length = 0 ∨ full.length = 4 →
      lenientBlocks rest (full.map some ++ [p, q, r, s]) = .ok (full ++ bits))
    {full : List Nat} (hfull : WholeGroups full) :
    lenientBlocks (w :: x :: y :: z :: rest) (full.map some) = .ok (full ++ bits) := by
  have hthree : ∀ block : List (Option Nat), block.length < 6 →
      lenientBlocks (x :: y :: z :: rest) block = lenientBlocks rest (block ++ [q, r, s]) := by
    intro block hblock
    rw [lenientBlocks_cons hx (by omega), lenientBlocks_cons hy (by simp; omega),
      lenientBlocks_cons hz (by simp; omega)]
    simp only [List.append_assoc, List.cons_append, List.nil_append]
  by_cases height : full.length = 8
  · have hnew := hrest [] (.inl rfl)
    rw [lenientBlocks_full hw height, hthree _ (by simp)]
    exact congrArg (Except.map (full ++ ·)) hnew
  · have hroom : full.length = 0 ∨ full.length = 4 := hfull.imp_right fun h => h.resolve_right height
    rw [lenientBlocks_cons hw (by simpa using height), hthree _ (by simp; omega), List.append_assoc]
    exact hrest full hroom

theorem lenientBlocks_last {slots : List (Option Nat)} {bits full : List Nat} (hslots : slots.length = 4)
    (hlast : lenientLast slots = .ok bits) (hfull : full.length = 0 ∨ full.length = 4) :
    lenientBlocks [] (full.map some ++ slots) = .ok (full ++ bits) := by
  unfold lenientBlocks
  rcases hfull with hfull | hfull
  · rw [List.length_eq_zero_iff.mp hfull, if_neg (by simp [hslots])]
    exact hlast
  · have hlength : (full.map some).length = 4 := (List.length_map some).trans hfull
    rw [if_pos (by simp [hslots, hfull]), List.take_left' hlength, List.drop_left' hlength,
      mapM_id_map_some, hlast]
    rfl

theorem lenientBlocks_nil {full : List Nat} (hfull : WholeGroups full) :
    lenientBlocks [] (full.map some) = .ok full := by
  have hfour : ∀ four : List Nat, four.length = 4 → lenientLast (four.map some) = .ok four := by
    intro four hlength
    match four, hlength with
    | [_, _, _, _], _ => rfl
  rcases hfull with hzero | hfull | height
  · rw [List.length_eq_zero_iff.mp hzero]
    rfl
  · exact lenientBlocks_last ((List.length_map some).trans hfull) (hfour full hfull) (.inl (List.length_nil))
  · have hdrop : (full.drop 4).length = 4 := by rw [List.length_drop, height]
    have htake : (full.take 4).length = 4 := by rw [List.length_take, height]; rfl
    have hread := lenientBlocks_last ((List.length_map some).trans hdrop) (hfour _ hdrop) (.inr htake)
    rwa [← List.map_append, List.take_append_drop] at hread

/-- What some bytes are encoded as is read as their sextets, behind a block that is full up to a group. -/
theorem lenientBlocks_encode (data : List UInt8) {full : List Nat} (hfull : WholeGroups full) :
    lenientBlocks (utf8 (encode data)) (full.map some) = .ok (full ++ sextets data) := by
  have hlt := lt_of_mem_sextets data
  induction data using sextets.induct generalizing full with
  | case1 a b c rest ih =>
      simp only [sextets, List.forall_mem_cons] at hlt
      obtain ⟨h₁, h₂, h₃, h₄, hlt⟩ := hlt
      simp only [encode, sextets, utf8_symbol_cons h₁, utf8_symbol_cons h₂, utf8_symbol_cons h₃,
        utf8_symbol_cons h₄]
      refine lenientBlocks_four (lenientSymbol_letter h₁) (lenientSymbol_letter h₂)
        (lenientSymbol_letter h₃) (lenientSymbol_letter h₄) (fun before hbefore => ?_) hfull
      have hgroup : ∀ group : List Nat, group.length = 4 →
          lenientBlocks (utf8 (encode rest)) (before.map some ++ group.map some) =
            .ok (before ++ (group ++ sextets rest)) := by
        intro group hgroup
        have hwhole : WholeGroups (before ++ group) := by
          rw [WholeGroups, List.length_append]
          omega
        rw [← List.map_append, ← List.append_assoc]
        exact ih hwhole hlt
      exact hgroup [_, _, _, _] rfl
  | case2 a b =>
      simp only [sextets, List.forall_mem_cons] at hlt
      obtain ⟨h₁, h₂, h₃, -⟩ := hlt
      simp only [encode, sextets, utf8_symbol_cons h₁, utf8_symbol_cons h₂, utf8_symbol_cons h₃]
      exact lenientBlocks_four (lenientSymbol_letter h₁) (lenientSymbol_letter h₂)
        (lenientSymbol_letter h₃) rfl (fun _ => lenientBlocks_last rfl rfl) hfull
  | case3 a =>
      simp only [sextets, List.forall_mem_cons] at hlt
      obtain ⟨h₁, h₂, -⟩ := hlt
      simp only [encode, sextets, utf8_symbol_cons h₁, utf8_symbol_cons h₂]
      exact lenientBlocks_four (lenientSymbol_letter h₁) (lenientSymbol_letter h₂) rfl rfl
        (fun _ => lenientBlocks_last rfl rfl) hfull
  | case4 =>
      rw [sextets, List.append_nil]
      exact lenientBlocks_nil hfull

theorem exists_encode_eq (data : List UInt8) :
    ∃ pads, encode data = (sextets data).map symbol ++ List.replicate pads '=' := by
  induction data using sextets.induct with
  | case1 a b c rest ih =>
      obtain ⟨pads, hpads⟩ := ih
      exact ⟨pads, by simp only [encode, sextets, hpads, List.map_cons, List.cons_append]⟩
  | case2 a b => exact ⟨1, rfl⟩
  | case3 a => exact ⟨2, rfl⟩
  | case4 => exact ⟨0, rfl⟩

/-- A character of a text in base64 is neither a part of a mark nor a line end, nor is it skipped. -/
structure Spells (c : Char) : Prop where
  ne_dash : c ≠ '-'
  no_end : ¬ isLineEnd c
  no_blank : ∀ byte ∈ utf8EncodeChar c, ¬ isBlank byte

theorem spells_of_mem_encode {data : List UInt8} : ∀ c ∈ encode data, Spells c := by
  obtain ⟨pads, hpads⟩ := exists_encode_eq data
  rw [hpads]
  intro c hc
  rcases List.mem_append.mp hc with hc | hc
  · obtain ⟨bits, hbits, rfl⟩ := List.mem_map.mp hc
    obtain ⟨hbyte, -, -, hblank, hdash, hend⟩ := letter_spec bits (lt_of_mem_sextets data bits hbits)
    refine ⟨hdash, hend, ?_⟩
    rw [hbyte]
    exact List.forall_mem_singleton.mpr hblank
  · rw [List.eq_of_mem_replicate hc]
    exact ⟨by decide, Bool.false_ne_true, List.any_eq_false.mp rfl⟩

/-- A text is read as what was encoded if it is spelled the same up to blanks. -/
theorem decodeLenient_of_filter_eq {data text : List UInt8}
    (h : text.filter (!isBlank ·) = (utf8 (encode data)).filter (!isBlank ·)) :
    decodeLenient text = .ok data := by
  have hclean : (utf8 (encode data)).filter (!isBlank ·) = utf8 (encode data) := by
    refine List.filter_eq_self.mpr fun byte hbyte => ?_
    obtain ⟨c, hc, hbyte⟩ := List.mem_flatMap.mp hbyte
    rw [Bool.eq_false_of_not_eq_true ((spells_of_mem_encode c hc).no_blank byte hbyte)]
    rfl
  have hblocks := @lenientBlocks_encode data [] (.inl rfl)
  rw [List.map_nil, List.nil_append] at hblocks
  rw [decodeLenient, h, hclean, hblocks]
  exact congrArg Except.ok (bytes_sextets data)

end Base64

theorem Text.linesFrom_append {isEnd : Char → Bool} {line : List Char} (hline : ∀ c ∈ line, ¬ isEnd c)
    {last : Char} (hlast : isEnd last = true) (start rest : List Char) :
    linesFrom isEnd start (line ++ last :: rest) =
      (start.reverse ++ line ++ [last]) :: linesFrom isEnd [] rest := by
  induction line generalizing start with
  | nil => simp [linesFrom, hlast]
  | cons c line ih =>
      obtain ⟨hc, hline⟩ := List.forall_mem_cons.mp hline
      rw [List.cons_append, linesFrom, if_neg hc, ih hline]
      simp

namespace Pem

open Base64 (Spells isBlank)

theorem lines_append_newline {line : List Char} (hline : ∀ c ∈ line, ¬ isLineEnd c) (rest : List Char) :
    Text.lines isLineEnd (line ++ '\n' :: rest) = (line ++ ['\n']) :: Text.lines isLineEnd rest :=
  Text.linesFrom_append hline rfl [] rest

theorem filter_utf8_wrapped (width fuel : Nat) (text : List Char) :
    (utf8 (wrapped width fuel text)).filter (!isBlank ·) = (utf8 text).filter (!isBlank ·) := by
  induction fuel generalizing text with
  | zero => rfl
  | succ fuel ih =>
      unfold wrapped
      split
      next hnil => rw [hnil]
      next =>
        have hend : ∀ rest, (utf8 ('\n' :: rest)).filter (!isBlank ·) = (utf8 rest).filter (!isBlank ·) :=
          fun _ => rfl
        have happend : ∀ first second, utf8 (first ++ second) = utf8 first ++ utf8 second :=
          fun _ _ => List.flatMap_append
        rw [happend, List.filter_append, hend, ih, ← List.filter_append, ← happend, List.take_append_drop]

theorem isPrefixOf_dashes {c : Char} (hc : c ≠ '-') (mark line : List Char) :
    ('-' :: mark).isPrefixOf (c :: line) = false := by
  simp [List.isPrefixOf, hc.symm]

/-- The lines that a text was cut into are read into the section that is open. -/
theorem certificateIn_wrapped {label : List Char} {width : Nat} (hwidth : 0 < width) (fuel : Nat)
    {text : List Char} (htext : ∀ c ∈ text, Spells c) (hfuel : text.length ≤ fuel)
    (content rest : List Char) :
    certificateIn (some ⟨label, content⟩) (Text.lines isLineEnd (wrapped width fuel text ++ rest)) =
      certificateIn (some ⟨label, content ++ wrapped width fuel text⟩) (Text.lines isLineEnd rest) := by
  induction fuel generalizing text content with
  | zero =>
      rw [List.length_eq_zero_iff.mp (Nat.le_zero.mp hfuel)]
      simp [wrapped]
  | succ fuel ih =>
      obtain ⟨width, rfl⟩ := Nat.exists_eq_add_one_of_ne_zero hwidth.ne'
      cases text with
      | nil => simp [wrapped]
      | cons c text =>
          have hline : ∀ d ∈ (c :: text).take (width + 1), ¬ isLineEnd d := fun d hd =>
            (htext d (List.mem_of_mem_take hd)).no_end
          have hdash : c ≠ '-' := (htext c List.mem_cons_self).ne_dash
          have hopens : opens ((c :: text).take (width + 1) ++ ['\n']) = false :=
            isPrefixOf_dashes hdash _ _
          have hcloses : closes label ((c :: text).take (width + 1) ++ ['\n']) = false :=
            isPrefixOf_dashes hdash _ _
          have hdrop : ∀ d ∈ (c :: text).drop (width + 1), Spells d := fun d hd =>
            htext d (List.mem_of_mem_drop hd)
          have hlength : ((c :: text).drop (width + 1)).length ≤ fuel := by
            simp only [List.length_drop, List.length_cons] at hfuel ⊢
            omega
          rw [wrapped, if_neg (List.cons_ne_nil _ _), List.append_assoc, List.cons_append,
            lines_append_newline hline, certificateIn, hopens, hcloses]
          simp only [Bool.false_eq_true, if_false]
          rw [ih hdrop hlength]
          simp

def certificateLabel : List Char := "CERTIFICATE".toList

theorem certificateIn_opening (rest : List (List Char)) :
    certificateIn none ((beginMark ++ certificateLabel ++ dashes ++ ['\n']) :: rest) =
      certificateIn (some ⟨certificateLabel, []⟩) rest := by
  have hlabel : label (beginMark ++ certificateLabel ++ dashes ++ ['\n']) = .ok certificateLabel := rfl
  have hopens : opens (beginMark ++ certificateLabel ++ dashes ++ ['\n']) = true := rfl
  rw [certificateIn, if_pos hopens, hlabel]
  rfl

theorem certificateIn_closing {content : List Char} {data : List UInt8}
    (h : Base64.decodeLenient (utf8 content) = .ok data) (rest : List (List Char)) :
    certificateIn (some ⟨certificateLabel, content⟩)
      ((endMark ++ certificateLabel ++ dashes ++ ['\n']) :: rest) = .ok (some data) := by
  have hopens : opens (endMark ++ certificateLabel ++ dashes ++ ['\n']) = false := rfl
  have hcloses : closes certificateLabel (endMark ++ certificateLabel ++ dashes ++ ['\n']) = true := rfl
  have hknown : certificateLabel ∈ knownLabels := by decide
  simp only [certificateIn, hopens, hcloses, hknown, h, Bool.false_eq_true, if_false, if_true]
  rfl

/-- The lines between the marks. -/
def lineText (bytes : List UInt8) : List Char :=
  wrapped 64 (Base64.encode bytes).length (Base64.encode bytes)

theorem toList_armor (label : String) (bytes : List UInt8) :
    (armor label bytes).toList = (beginMark ++ label.toList ++ dashes) ++ '\n' ::
      (lineText bytes ++ ((endMark ++ label.toList ++ dashes) ++ '\n' :: [])) := by
  simp only [armor, lineText, String.toList_ofList, List.append_assoc, List.cons_append]

/-- What is written as a certificate is read again. -/
theorem certificate?_armor (der : List UInt8) : certificate? (armor "CERTIFICATE" der) = .ok (some der) := by
  have hdecode : Base64.decodeLenient (utf8 (lineText der)) = .ok der :=
    Base64.decodeLenient_of_filter_eq (filter_utf8_wrapped _ _ _)
  have hopening : ∀ c ∈ beginMark ++ certificateLabel ++ dashes, ¬ isLineEnd c := List.any_eq_false.mp rfl
  have hclosing : ∀ c ∈ endMark ++ certificateLabel ++ dashes, ¬ isLineEnd c := List.any_eq_false.mp rfl
  have htext : (armor "CERTIFICATE" der).toList = (beginMark ++ certificateLabel ++ dashes) ++ '\n' ::
      (lineText der ++ ((endMark ++ certificateLabel ++ dashes) ++ '\n' :: [])) :=
    toList_armor "CERTIFICATE" der
  calc certificate? (armor "CERTIFICATE" der)
      = certificateIn (some ⟨certificateLabel, []⟩) (Text.lines isLineEnd
          (lineText der ++ ((endMark ++ certificateLabel ++ dashes) ++ '\n' :: []))) := by
        rw [certificate?, htext, lines_append_newline hopening, certificateIn_opening]
    _ = certificateIn (some ⟨certificateLabel, lineText der⟩)
          (Text.lines isLineEnd ((endMark ++ certificateLabel ++ dashes) ++ '\n' :: [])) := by
        rw [lineText, certificateIn_wrapped (by decide) _ Base64.spells_of_mem_encode le_rfl, List.nil_append]
    _ = .ok (some der) := by
        rw [lines_append_newline hclosing, certificateIn_closing hdecode]

end Pem

theorem certificateOf_armor (der : List UInt8) : certificateOf (Pem.armor "CERTIFICATE" der) = .ok der := by
  rw [certificateOf, Pem.certificate?_armor]

end Localnet
