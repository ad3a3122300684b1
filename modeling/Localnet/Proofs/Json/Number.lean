import Localnet.Json.Number
import Localnet.Json.Writer

/-!
# Numbers that are written and read

An integer reads back as itself. A float is written with a point or an exponent, so that nothing but a
float is read from it.
-/

namespace Localnet.Json

/-- A text that does not go on with a number before it. -/
def EndsNumber (rest : List Char) : Prop :=
  ∀ c ∈ rest.head?, isDigit c = false ∧ c ≠ '.' ∧ c ≠ 'e' ∧ c ≠ 'E'

theorem endsNumber_nil : EndsNumber [] := nofun

theorem endsNumber_cons {c : Char} (h : c = ',' ∨ c = ']' ∨ c = '}') (rest : List Char) :
    EndsNumber (c :: rest) := by
  intro d hd
  obtain rfl : c = d := by simpa using hd
  rcases h with rfl | rfl | rfl <;> decide

theorem EndsNumber.not_beforeDigit {rest : List Char} (h : EndsNumber rest) :
    beforeDigit rest = false := by
  cases rest with
  | nil => rfl
  | cons c rest => simp [beforeDigit, (h c rfl).1]

/-! ### Digits -/

theorem isDigit_eq (c : Char) : isDigit c = c.isDigit := by
  simp [isDigit, Char.isDigit, Char.le_def]

theorem isDigit_of_mem_toDigits {n : Nat} : ∀ c ∈ Nat.toDigits 10 n, isDigit c = true := by
  intro c hc
  rw [isDigit_eq]
  exact Nat.isDigit_of_mem_toDigits (by decide) (by decide) hc

theorem isDigit_of_mem_zeros {n : Int} : ∀ c ∈ zeros n, isDigit c = true := by
  intro c hc
  rw [List.eq_of_mem_replicate hc]
  decide

theorem head?_toDigits_ne_zero {n : Nat} (hn : 0 < n) : (Nat.toDigits 10 n).head? ≠ some '0' := by
  induction n using Nat.strongRecOn with
  | ind n ih =>
      rw [Nat.toDigits_eq_if (by decide)]
      split
      next hlt =>
        have hall : ∀ digit < 10, 0 < digit → [Nat.digitChar digit].head? ≠ some '0' := by decide
        exact hall n hlt hn
      next hle =>
        have hdiv : 0 < n / 10 := by omega
        have hrest := ih (n / 10) (by omega) hdiv
        cases htext : Nat.toDigits 10 (n / 10) with
        | nil => exact absurd htext Nat.toDigits_ne_nil
        | cons c ds =>
            rw [htext] at hrest
            exact hrest

theorem le_ofDigitChars (ds : List Char) (n : Nat) : n ≤ Nat.ofDigitChars 10 ds n := by
  rw [Nat.ofDigitChars_eq_ofDigitChars_zero]
  have hpos : 0 < 10 ^ ds.length := Nat.pow_pos (by decide)
  have hmul := Nat.le_mul_of_pos_left n hpos
  omega

theorem gather_append {limit n count : Nat} {ds rest : List Char} (hds : ∀ c ∈ ds, isDigit c = true)
    (hrest : beforeDigit rest = false) (hlimit : Nat.ofDigitChars 10 ds n < limit) :
    gather limit n count (ds ++ rest) =
      ⟨Nat.ofDigitChars 10 ds n, count + ds.length, rest⟩ := by
  induction ds generalizing n count with
  | nil =>
      cases rest with
      | nil => rfl
      | cons c rest =>
          have hc : isDigit c = false := hrest
          simp [gather, hc]
  | cons c ds ih =>
      obtain ⟨hc, hds⟩ := List.forall_mem_cons.mp hds
      have hstep : Nat.ofDigitChars 10 (c :: ds) n = Nat.ofDigitChars 10 ds (n * 10 + digitValue c) := by
        rw [Nat.ofDigitChars_cons, Nat.mul_comm]
        rfl
      rw [hstep] at hlimit ⊢
      have hlt : n * 10 + digitValue c < limit := Nat.lt_of_le_of_lt (le_ofDigitChars ds _) hlimit
      have hcount : count + 1 + ds.length = count + (c :: ds).length := by
        rw [List.length_cons]
        omega
      rw [List.cons_append, gather, if_pos (by simp [hc, hlt]), ih hds hlimit, hcount]

/-- Digits that have no place are left in front of the rest. -/
theorem gather_rest_eq (limit n count : Nat) {ds rest : List Char} (hds : ∀ c ∈ ds, isDigit c = true)
    (hrest : beforeDigit rest = false) :
    ∃ left, (gather limit n count (ds ++ rest)).rest = left ++ rest ∧ ∀ c ∈ left, isDigit c = true := by
  induction ds generalizing n count with
  | nil =>
      refine ⟨[], ?_, nofun⟩
      cases rest with
      | nil => rfl
      | cons c rest =>
          have hc : isDigit c = false := hrest
          simp [gather, hc]
  | cons c ds ih =>
      rw [List.cons_append, gather]
      split
      · exact ih _ _ (List.forall_mem_cons.mp hds).2
      · exact ⟨c :: ds, rfl, hds⟩

theorem dropWhile_isDigit_append {ds rest : List Char} (hds : ∀ c ∈ ds, isDigit c = true)
    (hrest : beforeDigit rest = false) : (ds ++ rest).dropWhile isDigit = rest := by
  rw [List.dropWhile_append_of_pos hds]
  cases rest with
  | nil => rfl
  | cons c rest =>
      have hc : isDigit c = false := hrest
      simp [hc]

/-- Behind the digits, whether all of them had a place or not. -/
theorem behind_gather (limit n count : Nat) {ds rest : List Char} (hds : ∀ c ∈ ds, isDigit c = true)
    (hrest : beforeDigit rest = false) :
    (gather limit n count (ds ++ rest)).rest.dropWhile isDigit = rest ∧
      (beforeDigit (gather limit n count (ds ++ rest)).rest = false →
        (gather limit n count (ds ++ rest)).rest = rest) := by
  obtain ⟨left, hleft, hdigits⟩ := gather_rest_eq limit n count hds hrest
  rw [hleft]
  refine ⟨dropWhile_isDigit_append hdigits hrest, fun hbefore => ?_⟩
  cases left with
  | nil => rfl
  | cons c left =>
      have hc : isDigit c = false := hbefore
      rw [hdigits c List.mem_cons_self] at hc
      cases hc

/-! ### Integers -/

theorem afterDigits_of_endsNumber {rest : List Char} (negative : Bool) (n : Nat)
    (hrest : EndsNumber rest) : afterDigits negative n rest = .ok (signed negative n, rest) := by
  cases rest with
  | nil => rfl
  | cons c rest =>
      obtain ⟨-, hpoint, he, hE⟩ := hrest c rfl
      unfold afterDigits
      split
      next heq => exact absurd (List.cons.inj heq).1 hpoint
      next heq =>
        obtain ⟨rfl, rfl⟩ := List.cons.inj heq
        rw [if_neg (by simp [he, hE])]
      next heq => cases heq

theorem unsigned_toDigits {n : Nat} {rest : List Char} (negative : Bool) (hn : n < wordLimit)
    (hrest : EndsNumber rest) :
    unsigned negative (Nat.toDigits 10 n ++ rest) = .ok (signed negative n, rest) := by
  have hbefore := hrest.not_beforeDigit
  by_cases hzero : n = 0
  · rw [hzero, Nat.toDigits_zero, List.singleton_append, unsigned, if_pos rfl, hbefore,
      if_neg (by decide), afterDigits_of_endsNumber negative 0 hrest]
  · have hhead := head?_toDigits_ne_zero (Nat.pos_of_ne_zero hzero)
    have hdigits := isDigit_of_mem_toDigits (n := n)
    have hvalue := @Nat.ofDigitChars_ten_toDigits n
    cases htext : Nat.toDigits 10 n with
    | nil => exact absurd htext Nat.toDigits_ne_nil
    | cons c ds =>
        rw [htext] at hhead hdigits hvalue
        obtain ⟨hc, hds⟩ := List.forall_mem_cons.mp hdigits
        have hne : c ≠ '0' := fun heq => hhead (by rw [heq]; rfl)
        have hvalue : Nat.ofDigitChars 10 ds (digitValue c) = n := by
          rw [← hvalue, Nat.ofDigitChars_cons, Nat.mul_zero, Nat.zero_add]
          rfl
        have hgather : gather wordLimit (digitValue c) 1 (ds ++ rest) = ⟨n, 1 + ds.length, rest⟩ := by
          rw [gather_append hds hbefore (by rw [hvalue]; exact hn), hvalue]
        rw [List.cons_append, unsigned, if_neg hne, if_pos hc]
        simp only [hgather, hbefore, Bool.false_eq_true, if_false]
        exact afterDigits_of_endsNumber negative n hrest

/-! ### Floats -/

/-- Whatever is read, it is a float, and all before `rest` is taken. -/
def OnlyFloat (rest : List Char) (result : Except Fault (Number × List Char)) : Prop :=
  ∀ n left, result = .ok (n, left) → (∃ x, n = .float x) ∧ left = rest

theorem onlyFloat_ok (x : Binary64) (rest : List Char) : OnlyFloat rest (.ok (.float x, rest)) := by
  rintro n left h
  cases h
  exact ⟨⟨x, rfl⟩, rfl⟩

theorem onlyFloat_error (fault : Fault) (rest : List Char) : OnlyFloat rest (.error fault) := by
  rintro n left h
  cases h

theorem onlyFloat_finish (negative : Bool) (n : Nat) (exponent : Int) (rest : List Char) :
    OnlyFloat rest (finish negative n exponent rest) := by
  unfold finish
  split
  · exact onlyFloat_ok _ _
  · exact onlyFloat_error _ _

/-- An exponent as it is written: a sign and digits. -/
inductive ExponentText : List Char → Prop
  | intro {sign : Char} {ds : List Char} (hsign : sign = '+' ∨ sign = '-')
      (hds : ∀ c ∈ ds, isDigit c = true) : ExponentText ('e' :: sign :: ds)

/-- What is written behind the first digits of a float. -/
inductive FloatTail : List Char → Prop
  | exponent {text : List Char} (h : ExponentText text) : FloatTail text
  | fraction {ds : List Char} (hds : ∀ c ∈ ds, isDigit c = true) : FloatTail ('.' :: ds)
  | both {ds text : List Char} (hds : ∀ c ∈ ds, isDigit c = true) (h : ExponentText text) :
      FloatTail ('.' :: ds ++ text)

theorem onlyFloat_exponentPart (negative : Bool) (n : Nat) (exponent : Int) {sign : Char}
    {ds rest : List Char} (hsign : sign = '+' ∨ sign = '-') (hds : ∀ c ∈ ds, isDigit c = true)
    (hrest : beforeDigit rest = false) :
    OnlyFloat rest (exponentPart negative n exponent (sign :: ds ++ rest)) := by
  have hdigits : (exponentSign (sign :: ds ++ rest)).2 = ds ++ rest := by
    rcases hsign with rfl | rfl <;> rfl
  unfold exponentPart
  simp only [hdigits]
  split
  · exact onlyFloat_error _ _
  next c cs hcs =>
    split
    · exact onlyFloat_error _ _
    next hc =>
      cases ds with
      | nil =>
          rw [List.nil_append] at hcs
          rw [hcs] at hrest
          exact absurd (by simpa [beforeDigit] using hrest) (by simpa using hc)
      | cons d ds =>
          rw [List.cons_append] at hcs
          obtain ⟨rfl, rfl⟩ := List.cons.inj hcs
          obtain ⟨hdrop, hall⟩ :=
            behind_gather exponentLimit (digitValue d) 0 (List.forall_mem_cons.mp hds).2 hrest
          split
          · split
            · exact onlyFloat_error _ _
            · rw [hdrop]
              exact onlyFloat_ok _ _
          next hbefore =>
            rw [hall (by simpa using hbefore)]
            exact onlyFloat_finish _ _ _ _

theorem onlyFloat_optionalExponent (negative : Bool) (n : Nat) (exponent : Int) {text rest : List Char}
    (htext : text = [] ∨ ExponentText text) (hrest : EndsNumber rest) :
    OnlyFloat rest (optionalExponent negative n exponent (text ++ rest)) := by
  rcases htext with rfl | ⟨hsign, hds⟩
  · cases rest with
    | nil => exact onlyFloat_finish _ _ _ _
    | cons c rest =>
        obtain ⟨-, -, he, hE⟩ := hrest c rfl
        rw [List.nil_append, optionalExponent, if_neg (by simp [he, hE])]
        exact onlyFloat_finish _ _ _ _
  · exact onlyFloat_exponentPart _ _ _ hsign hds hrest.not_beforeDigit

theorem not_beforeDigit_exponentText {text : List Char} (htext : text = [] ∨ ExponentText text)
    {rest : List Char} (hrest : EndsNumber rest) : beforeDigit (text ++ rest) = false := by
  rcases htext with rfl | ⟨_, _⟩
  · exact hrest.not_beforeDigit
  · rfl

theorem onlyFloat_fraction (negative : Bool) (n : Nat) (exponent : Int) {ds text rest : List Char}
    (hds : ∀ c ∈ ds, isDigit c = true) (htext : text = [] ∨ ExponentText text)
    (hrest : EndsNumber rest) :
    OnlyFloat rest (fraction negative n exponent (ds ++ (text ++ rest))) := by
  obtain ⟨hdrop, hall⟩ :=
    behind_gather wordLimit n 0 hds (not_beforeDigit_exponentText htext hrest)
  unfold fraction
  dsimp only
  split
  · rw [hdrop]
    exact onlyFloat_optionalExponent _ _ _ htext hrest
  next hbefore =>
    split
    · split <;> exact onlyFloat_error _ _
    · rw [hall (by simpa using hbefore)]
      exact onlyFloat_optionalExponent _ _ _ htext hrest

theorem FloatTail.not_beforeDigit {tail : List Char} (h : FloatTail tail) (rest : List Char) :
    beforeDigit (tail ++ rest) = false := by
  cases h with
  | exponent h => cases h; rfl
  | fraction hds => rfl
  | both hds h => rfl

theorem onlyFloat_afterDigits (negative : Bool) (n : Nat) {tail rest : List Char}
    (htail : FloatTail tail) (hrest : EndsNumber rest) :
    OnlyFloat rest (afterDigits negative n (tail ++ rest)) := by
  cases htail with
  | exponent h =>
      obtain ⟨hsign, hds⟩ := h
      exact onlyFloat_exponentPart _ _ _ hsign hds hrest.not_beforeDigit
  | fraction hds => exact onlyFloat_fraction _ _ _ hds (.inl rfl) hrest
  | both hds h =>
      rw [List.append_assoc]
      exact onlyFloat_fraction _ _ _ hds (.inr h) hrest

theorem onlyFloat_afterOverflow (negative : Bool) (n : Nat) {ds tail rest : List Char}
    (hds : ∀ c ∈ ds, isDigit c = true) (htail : FloatTail tail) (hrest : EndsNumber rest) :
    OnlyFloat rest (afterOverflow negative n (ds ++ (tail ++ rest))) := by
  unfold afterOverflow
  dsimp only
  rw [dropWhile_isDigit_append hds (htail.not_beforeDigit rest)]
  cases htail with
  | exponent h =>
      obtain ⟨hsign, hds⟩ := h
      exact onlyFloat_exponentPart _ _ _ hsign hds hrest.not_beforeDigit
  | fraction hds => exact onlyFloat_fraction _ _ _ hds (.inl rfl) hrest
  | both hds h =>
      rw [List.append_assoc]
      exact onlyFloat_fraction _ _ _ hds (.inr h) hrest

theorem onlyFloat_unsigned (negative : Bool) {c : Char} {ds tail rest : List Char}
    (hds : ∀ d ∈ c :: ds, isDigit d = true) (htail : FloatTail tail) (hrest : EndsNumber rest) :
    OnlyFloat rest (unsigned negative (c :: ds ++ (tail ++ rest))) := by
  obtain ⟨hc, hds⟩ := List.forall_mem_cons.mp hds
  rw [List.cons_append, unsigned]
  split
  · split
    · exact onlyFloat_error _ _
    next hbefore =>
      cases ds with
      | nil => exact onlyFloat_afterDigits _ _ htail hrest
      | cons d ds =>
          have hd := (List.forall_mem_cons.mp hds).1
          exact absurd hbefore (by simp [beforeDigit, hd])
  · dsimp only
    obtain ⟨left, hleft, hdigits⟩ :=
      gather_rest_eq wordLimit (digitValue c) 1 hds (htail.not_beforeDigit rest)
    obtain ⟨-, hall⟩ := behind_gather wordLimit (digitValue c) 1 hds (htail.not_beforeDigit rest)
    split
    · rw [hleft]
      exact onlyFloat_afterOverflow _ _ hdigits htail hrest
    next hbefore =>
      rw [hall (by simpa using hbefore)]
      exact onlyFloat_afterDigits _ _ htail hrest

theorem floatTail_positional {d : Decimal} :
    ∃ c ds tail, positional (Nat.toDigits 10 d.digits) d.exponent = c :: ds ++ tail ∧
      (∀ d ∈ c :: ds, isDigit d = true) ∧ FloatTail tail := by
  have hdigits := isDigit_of_mem_toDigits (n := d.digits)
  have hzero : isDigit '0' = true := by decide
  cases htext : Nat.toDigits 10 d.digits with
  | nil => exact absurd htext Nat.toDigits_ne_nil
  | cons c ds =>
      rw [htext] at hdigits
      obtain ⟨hc, hds⟩ := List.forall_mem_cons.mp hdigits
      unfold positional
      dsimp only
      split
      · refine ⟨c, ds ++ zeros d.exponent, ['.', '0'], by simp, ?_, .fraction (by simp [hzero])⟩
        exact List.forall_mem_cons.mpr ⟨hc, List.forall_mem_append.mpr ⟨hds, isDigit_of_mem_zeros⟩⟩
      · split
        next hbefore =>
          obtain ⟨k, hk⟩ : ∃ k, (((c :: ds).length : Int) + d.exponent).toNat = k + 1 :=
            ⟨(((c :: ds).length : Int) + d.exponent).toNat - 1, by omega⟩
          rw [hk]
          refine ⟨c, ds.take k, '.' :: ds.drop k, rfl, ?_, .fraction fun d hd => ?_⟩
          · exact List.forall_mem_cons.mpr ⟨hc, fun d hd => hds d (List.mem_of_mem_take hd)⟩
          · exact hds d (List.mem_of_mem_drop hd)
        next =>
          refine ⟨'0', [], _, rfl, by simp [hzero], .fraction ?_⟩
          exact List.forall_mem_append.mpr ⟨isDigit_of_mem_zeros, hdigits⟩

theorem floatTail_scientific (n : Nat) (leading : Int) :
    ∃ c ds tail, scientific (Nat.toDigits 10 n) leading = c :: ds ++ tail ∧
      (∀ d ∈ c :: ds, isDigit d = true) ∧ FloatTail tail := by
  have hdigits := isDigit_of_mem_toDigits (n := n)
  have hexponent : ExponentText
      ('e' :: (if leading < 0 then '-' else '+') :: Nat.toDigits 10 leading.natAbs) :=
    ⟨by split <;> simp, isDigit_of_mem_toDigits⟩
  unfold scientific
  cases htext : Nat.toDigits 10 n with
  | nil => exact absurd htext Nat.toDigits_ne_nil
  | cons c ds =>
      rw [htext] at hdigits
      obtain ⟨hc, hds⟩ := List.forall_mem_cons.mp hdigits
      cases ds with
      | nil => exact ⟨c, [], _, rfl, hdigits, .exponent hexponent⟩
      | cons d ds => exact ⟨c, [], _, rfl, by simp [hc], .both hds hexponent⟩

/-- A float has digits in front, and behind them a point or an exponent. -/
theorem floatTail_writeDecimal (format : FloatFormat) (d : Decimal) :
    ∃ c ds tail, writeDecimal format d = c :: ds ++ tail ∧ (∀ d ∈ c :: ds, isDigit d = true) ∧
      FloatTail tail := by
  unfold writeDecimal
  dsimp only
  split
  · exact floatTail_positional
  · exact floatTail_scientific _ _

end Localnet.Json
