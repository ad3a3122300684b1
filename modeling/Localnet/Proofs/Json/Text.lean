import Localnet.Json.Text
import Localnet.Json.Writer

/-!
# Strings that are written and read

Every string reads back as itself: a character that may not stand in a string is written as an escape,
and that escape stands for it.
-/

namespace Localnet.Json

theorem hexDigit?_digitChar : ∀ n < 16, hexDigit? (Nat.digitChar n) = some n := by
  decide

theorem fourHex_control {n : Nat} (hn : n < 0x20) (rest : List Char) :
    fourHex ('0' :: '0' :: Nat.digitChar (n / 16) :: Nat.digitChar (n % 16) :: rest) =
      .ok (n, rest) := by
  have hhigh := hexDigit?_digitChar (n / 16) (by omega)
  have hlow := hexDigit?_digitChar (n % 16) (by omega)
  have hzero : hexDigit? '0' = some 0 := by decide
  have hvalue : ((0 * 16 + 0) * 16 + n / 16) * 16 + n % 16 = n := by omega
  simp only [fourHex, hhigh, hlow, hzero, hvalue]

theorem codeEscape_control {c : Char} (hc : c.toNat < 0x20) (rest : List Char) :
    codeEscape ('0' :: '0' :: Nat.digitChar (c.toNat / 16) :: Nat.digitChar (c.toNat % 16) :: rest) =
      .ok (c, rest) := by
  have htrailing : isTrailing c.toNat = false := by
    rw [isTrailing, Bool.and_eq_false_iff, decide_eq_false_iff_not]
    exact .inl (by omega)
  have hleading : isLeading c.toNat = false := by
    rw [isLeading, Bool.and_eq_false_iff, decide_eq_false_iff_not]
    exact .inl (by omega)
  unfold codeEscape
  change Except.bind (fourHex _) _ = _
  rw [fourHex_control hc]
  simp [Except.bind, htrailing, hleading, Char.ofNat_toNat]
  rfl

theorem escape_short {c d : Char} (h : shortEscape? d = some c) (rest : List Char) :
    escape (d :: rest) = .ok (c, rest) := by
  simp only [escape, h]

/-- A character is written as an escape that stands for it, or as itself if it may stand there. -/
theorem escaped_cases (c : Char) :
    (∃ code, escaped c = '\\' :: code ∧ ∀ rest, escape (code ++ rest) = .ok (c, rest)) ∨
      (escaped c = [c] ∧ c ≠ '"' ∧ c ≠ '\\' ∧ ¬ c.toNat < 0x20) := by
  by_cases hquote : c = '"'
  · subst hquote
    exact .inl ⟨['"'], rfl, escape_short rfl⟩
  by_cases hbackslash : c = '\\'
  · subst hbackslash
    exact .inl ⟨['\\'], rfl, escape_short rfl⟩
  by_cases hbackspace : c = '\x08'
  · subst hbackspace
    exact .inl ⟨['b'], rfl, escape_short rfl⟩
  by_cases hfeed : c = '\x0c'
  · subst hfeed
    exact .inl ⟨['f'], rfl, escape_short rfl⟩
  by_cases hnewline : c = '\n'
  · subst hnewline
    exact .inl ⟨['n'], rfl, escape_short rfl⟩
  by_cases hreturn : c = '\r'
  · subst hreturn
    exact .inl ⟨['r'], rfl, escape_short rfl⟩
  by_cases htab : c = '\t'
  · subst htab
    exact .inl ⟨['t'], rfl, escape_short rfl⟩
  unfold escaped
  rw [if_neg hquote, if_neg hbackslash, if_neg hbackspace, if_neg hfeed, if_neg hnewline,
    if_neg hreturn, if_neg htab]
  by_cases hcontrol : c.toNat < 0x20
  · rw [if_pos hcontrol]
    exact .inl ⟨_, rfl, fun rest => codeEscape_control hcontrol rest⟩
  · rw [if_neg hcontrol]
    exact .inr ⟨rfl, hquote, hbackslash, hcontrol⟩

theorem textChars_escaped {fuel : Nat} {c : Char} {cs text rest : List Char}
    (h : textChars fuel cs = .ok (text, rest)) :
    textChars (fuel + 1) (escaped c ++ cs) = .ok (c :: text, rest) := by
  rcases escaped_cases c with ⟨code, hcode, hescape⟩ | ⟨hplain, hquote, hbackslash, hcontrol⟩
  · rw [hcode, List.cons_append, textChars, if_neg (by decide), if_pos rfl, hescape]
    simp only [bind, Except.bind, h]
    rfl
  · rw [hplain, List.singleton_append, textChars, if_neg hquote, if_neg hbackslash, if_neg hcontrol]
    simp only [bind, Except.bind, h]
    rfl

theorem textChars_flatMap_escaped {fuel : Nat} {cs : List Char} (hfuel : cs.length < fuel)
    (rest : List Char) : textChars fuel (cs.flatMap escaped ++ '"' :: rest) = .ok (cs, rest) := by
  induction cs generalizing fuel with
  | nil =>
      obtain ⟨fuel, rfl⟩ : ∃ k, fuel = k + 1 := ⟨fuel - 1, by rw [List.length_nil] at hfuel; omega⟩
      rfl
  | cons c cs ih =>
      rw [List.length_cons] at hfuel
      obtain ⟨fuel, rfl⟩ : ∃ k, fuel = k + 1 := ⟨fuel - 1, by omega⟩
      rw [List.flatMap_cons, List.append_assoc]
      exact textChars_escaped (ih (by omega))

theorem escaped_ne_nil (c : Char) : escaped c ≠ [] := by
  rcases escaped_cases c with ⟨code, hcode, -⟩ | ⟨hplain, -⟩
  · rw [hcode]
    exact List.cons_ne_nil _ _
  · rw [hplain]
    exact List.cons_ne_nil _ _

theorem length_le_flatMap {α : Type} {write : α → List Char} (h : ∀ a, write a ≠ []) (as : List α) :
    as.length ≤ (as.flatMap write).length := by
  induction as with
  | nil => exact Nat.zero_le _
  | cons a as ih =>
      have hpos := List.length_pos_iff.mpr (h a)
      rw [List.flatMap_cons, List.length_append, List.length_cons]
      omega

theorem textBody_written (s : String) (rest : List Char) :
    textBody (s.toList.flatMap escaped ++ '"' :: rest) = .ok (s, rest) := by
  have hlength := length_le_flatMap escaped_ne_nil s.toList
  have hfuel : s.toList.length < (s.toList.flatMap escaped ++ '"' :: rest).length := by
    rw [List.length_append, List.length_cons]
    omega
  simp only [textBody, textChars_flatMap_escaped hfuel, String.ofList_toList]

end Localnet.Json
