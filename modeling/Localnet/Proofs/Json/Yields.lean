import Localnet.Json.Record
import Localnet.Proofs.Binary64
import Localnet.Proofs.Json.Number
import Localnet.Proofs.Json.Value

/-!
# What is read

A value that is read is one that a JSON document can hold: its objects list their members in order, its
floats are numbers, and its brackets nest no deeper than the reader lets them.
-/

namespace Localnet.Json

/-- What holds of everything that a reader gives. -/
def Yields {α : Type} (reader : Reader α) (good : α → Prop) : Prop :=
  ∀ cs a rest, reader cs = .ok (a, rest) → good a

theorem bind_eq_ok {α β : Type} {first : Except Fault (α × List Char)}
    {next : α × List Char → Except Fault (β × List Char)} {b : β} {rest : List Char}
    (h : first >>= next = .ok (b, rest)) :
    ∃ a left, first = .ok (a, left) ∧ next (a, left) = .ok (b, rest) := by
  cases first with
  | ok found => exact ⟨found.1, found.2, rfl, h⟩
  | error fault => cases h

namespace Yields

variable {α β : Type} {reader : Reader α} {good : α → Prop}

theorem map {good' : β → Prop} {f : α → β} (h : Yields reader good) (hf : ∀ a, good a → good' (f a)) :
    Yields (StateT.map f reader) good' := by
  intro cs b rest hread
  obtain ⟨a, left, hfirst, heq⟩ := bind_eq_ok hread
  cases heq
  exact hf a (h cs a _ hfirst)

theorem trivial : Yields reader fun _ => True := fun _ _ _ _ => True.intro

end Yields

theorem yields_read {α : Type} {reader : Reader α} {good : α → Prop} (h : Yields reader good)
    {text : String} {a : α} (hread : read reader text = .ok a) : good a := by
  unfold read Reader.run? at hread
  cases hresult : reader text.toList with
  | error fault =>
      rw [hresult] at hread
      cases hread
  | ok found =>
      rw [hresult] at hread
      change Except.mapError _ (ended found.2 >>= fun _ => .ok found.1) = _ at hread
      cases hended : ended found.2 with
      | error fault =>
          rw [hended] at hread
          cases hread
      | ok _ =>
          rw [hended] at hread
          cases hread
          exact h _ _ _ hresult

/-! ### Numbers -/

open Binary64 (Below)

def Number.IsFinite : Number → Prop
  | .int _ => True
  | .float x => x.isFinite

theorem powerOfTen_ge_one {k : Nat} (hk : k < 309) :
    (powerOfTen k).ratio.2 ≤ (powerOfTen k).ratio.1 := by
  have hall : ∀ k < 309, (powerOfTen k).ratio.2 ≤ (powerOfTen k).ratio.1 := by decide +kernel
  exact hall k hk

theorem greatestPower_ge_two :
    2 ^ 1 * (powerOfTen greatestPower).ratio.2 ≤ (powerOfTen greatestPower).ratio.1 := by
  decide +kernel

/-- A finite number that stays far below the greatest power of ten. -/
def Small (x : Binary64) : Prop := x.isFinite ∧ Below 66 x

theorem small_ofNat {n : Nat} (hn : n < wordLimit) : Small (.ofNat n) := by
  have hlt : n < 2 ^ (63 + 1) * 1 := hn
  exact ⟨Binary64.isFinite_ofRatio (by decide) hlt,
    (Binary64.below_ofRatio (by decide) hlt).mono (by decide)⟩

theorem Small.div_greatestPower {x : Binary64} (hx : Small x) :
    Small (x.div (powerOfTen greatestPower)) := by
  have hlt := Binary64.div_lt (a := 65) (c := 1) hx.2 greatestPower_ge_two
  exact ⟨Binary64.isFinite_ofRatio (b := 64) (by decide) hlt,
    Binary64.below_ofRatio (by decide) hlt⟩

theorem Small.isFinite_div {x : Binary64} (hx : Small x) {k : Nat} (hk : k ≤ greatestPower) :
    (x.div (powerOfTen k)).isFinite := by
  have hone := powerOfTen_ge_one (Nat.lt_succ_of_le hk)
  have hlt := Binary64.div_lt (a := 66) (c := 0) hx.2 (by rwa [Nat.pow_zero, Nat.one_mul])
  exact Binary64.isFinite_ofRatio (b := 65) (by decide) hlt

theorem isFinite_of_timesPower? {x y : Binary64} (hx : Small x) {exponent : Int} {steps : Nat}
    (h : timesPower? x exponent steps = some y) : y.isFinite := by
  -- a step divides by the greatest power of ten, and a small number stays small
  induction steps generalizing x exponent with
  | zero =>
      cases h
      exact hx.1
  | succ steps ih =>
      simp only [timesPower?] at h
      split at h
      next hsmall =>
        split at h
        · cases h
          exact hx.isFinite_div hsmall
        · split at h
          · cases h
          next hinfinite =>
            cases h
            exact Binary64.isFinite_of_not_isInfinite hinfinite
      next =>
        split at h
        · cases h
          exact hx.1
        · split at h
          · exact ih hx.div_greatestPower h
          · cases h

theorem isFinite_of_floatOf? {negative : Bool} {significand : Nat} {exponent : Int} {x : Binary64}
    (hsignificand : significand < wordLimit) (h : floatOf? negative significand exponent = some x) :
    x.isFinite := by
  have hsmall := small_ofNat hsignificand
  unfold floatOf? at h
  cases negative with
  | false => exact isFinite_of_timesPower? hsmall h
  | true =>
      obtain ⟨y, hy, rfl⟩ := Option.map_eq_some_iff.mp h
      rw [Binary64.isFinite_neg]
      exact isFinite_of_timesPower? hsmall hy

section

variable {negative : Bool} {significand : Nat} {exponent : Int}

theorem yields_finish (h : significand < wordLimit) :
    Yields (finish negative significand exponent) Number.IsFinite := by
  intro cs n rest hread
  unfold finish at hread
  split at hread
  next x hx =>
    cases hread
    exact isFinite_of_floatOf? h hx
  next => cases hread

theorem yields_exponentPart (h : significand < wordLimit) :
    Yields (exponentPart negative significand exponent) Number.IsFinite := by
  have hzero : (zero negative).isFinite := by cases negative <;> decide
  intro cs n rest hread
  unfold exponentPart at hread
  dsimp only at hread
  split at hread
  · cases hread
  · split at hread
    · cases hread
    · split at hread
      · split at hread
        · cases hread
        · cases hread
          exact hzero
      · exact yields_finish h _ _ _ hread

theorem yields_optionalExponent (h : significand < wordLimit) :
    Yields (optionalExponent negative significand exponent) Number.IsFinite := by
  intro cs n rest hread
  unfold optionalExponent at hread
  split at hread
  · split at hread
    · exact yields_exponentPart h _ _ _ hread
    · exact yields_finish h _ _ _ hread
  · exact yields_finish h _ _ _ hread

theorem gather_number_lt {limit number : Nat} (h : number < limit) (count : Nat) (cs : List Char) :
    (gather limit number count cs).number < limit := by
  induction cs generalizing number count with
  | nil => exact h
  | cons c rest ih =>
      rw [gather]
      split
      next hdigit =>
        simp only [Bool.and_eq_true, decide_eq_true_iff] at hdigit
        exact ih hdigit.2 _
      next => exact h

theorem yields_fraction (h : significand < wordLimit) :
    Yields (fraction negative significand exponent) Number.IsFinite := by
  intro cs n rest hread
  have htaken := gather_number_lt h 0 cs
  unfold fraction at hread
  dsimp only at hread
  split at hread
  · exact yields_optionalExponent htaken _ _ _ hread
  · split at hread
    · split at hread <;> cases hread
    · exact yields_optionalExponent htaken _ _ _ hread

theorem isFinite_signed (h : significand < wordLimit) : (signed negative significand).IsFinite := by
  unfold signed
  rw [dif_pos (show significand < 0x10000000000000000 from h)]
  split
  · split
    · trivial
    · exact (Binary64.isFinite_neg _).trans (small_ofNat h).1
  · trivial

theorem yields_afterDigits (h : significand < wordLimit) :
    Yields (afterDigits negative significand) Number.IsFinite := by
  intro cs n rest hread
  unfold afterDigits at hread
  split at hread
  · exact yields_fraction h _ _ _ hread
  · split at hread
    · exact yields_exponentPart h _ _ _ hread
    · cases hread
      exact isFinite_signed h
  · cases hread
    exact isFinite_signed h

theorem yields_afterOverflow (h : significand < wordLimit) :
    Yields (afterOverflow negative significand) Number.IsFinite := by
  intro cs n rest hread
  unfold afterOverflow at hread
  dsimp only at hread
  split at hread
  · exact yields_fraction h _ _ _ hread
  · exact yields_optionalExponent h _ _ _ hread

theorem digitValue_lt_wordLimit {c : Char} (h : isDigit c = true) : digitValue c < wordLimit := by
  simp only [isDigit, Bool.and_eq_true, decide_eq_true_iff, Char.le_def, UInt32.le_iff_toNat_le] at h
  have hnine : c.toNat ≤ 57 := h.2
  unfold digitValue wordLimit
  omega

/-- A number that is read is no infinity: its digits fit a word, and a power of ten that would take it
out of range is refused. -/
theorem yields_unsigned (negative : Bool) : Yields (unsigned negative) Number.IsFinite := by
  intro cs n rest hread
  unfold unsigned at hread
  split at hread
  · cases hread
  next c tail =>
    split at hread
    · split at hread
      · cases hread
      · exact yields_afterDigits (by decide) _ _ _ hread
    · split at hread
      next hdigit =>
        have htaken := gather_number_lt (digitValue_lt_wordLimit hdigit) 1 tail
        dsimp only at hread
        split at hread
        · exact yields_afterOverflow htaken _ _ _ hread
        · exact yields_afterDigits htaken _ _ _ hread
      next => cases hread

end

/-! ### Values -/

section

variable {α : Type} {good : α → Prop}

theorem yields_items {item : Reader α} (h : Yields item good) (fuel : Nat) (first : Bool) :
    Yields (items item fuel first) fun as => ∀ a ∈ as, good a := by
  induction fuel generalizing first with
  | zero => exact fun _ _ _ hread => nomatch hread
  | succ fuel ih =>
      intro cs as rest hread
      obtain ⟨step, afterStep, -, hread⟩ := bind_eq_ok hread
      cases step with
      | finished =>
          cases hread
          exact nofun
      | item =>
          obtain ⟨a, afterItem, hitem, hread⟩ := bind_eq_ok hread
          obtain ⟨others, _, hothers, hread⟩ := bind_eq_ok hread
          cases hread
          exact List.forall_mem_cons.mpr ⟨h _ _ _ hitem, ih false _ _ _ hothers⟩

theorem yields_listOf {item : Reader α} (h : Yields item good) :
    Yields (listOf item) fun as => ∀ a ∈ as, good a := by
  intro cs as rest hread
  obtain ⟨others, _, hitems, hread⟩ := bind_eq_ok hread
  obtain ⟨⟨⟩, _, -, hread⟩ := bind_eq_ok hread
  cases hread
  exact yields_items h _ _ _ _ _ hitems

theorem yields_members {value : Reader α} (h : Yields value good) (fuel : Nat) (first : Bool) :
    Yields (members value fuel first) fun entries => ∀ entry ∈ entries, good entry.2 := by
  induction fuel generalizing first with
  | zero => exact fun _ _ _ hread => nomatch hread
  | succ fuel ih =>
      intro cs entries rest hread
      obtain ⟨step, afterStep, -, hread⟩ := bind_eq_ok hread
      cases step with
      | finished =>
          cases hread
          exact nofun
      | item =>
          obtain ⟨name, afterName, -, hread⟩ := bind_eq_ok hread
          obtain ⟨⟨⟩, afterColon, -, hread⟩ := bind_eq_ok hread
          obtain ⟨a, afterValue, hvalue, hread⟩ := bind_eq_ok hread
          obtain ⟨others, _, hothers, hread⟩ := bind_eq_ok hread
          cases hread
          exact List.forall_mem_cons.mpr ⟨h _ _ _ hvalue, ih false _ _ _ hothers⟩

theorem yields_objectOf {value : Reader α} (h : Yields value good) :
    Yields (objectOf value) fun entries => ∀ entry ∈ entries, good entry.2 := by
  intro cs as rest hread
  obtain ⟨entries, _, hmembers, hread⟩ := bind_eq_ok hread
  obtain ⟨⟨⟩, _, -, hread⟩ := bind_eq_ok hread
  cases hread
  exact yields_members h _ _ _ _ _ hmembers

end

/-- Values that a document with so many open brackets can hold. -/
def Fits (depth : Nat) (v : Value) : Prop := v.isRegular ∧ v.depth ≤ depth

theorem fits_list {items : List Value} {depth : Nat} (h : ∀ v ∈ items, Fits depth v) :
    Fits (depth + 1) (.list items) :=
  ⟨Value.isRegular_list.mpr fun v hv => (h v hv).1, Value.depth_list_le_iff.mpr fun v hv => (h v hv).2⟩

theorem fits_object {members : List (String × Value)} {depth : Nat} (hordered : Members.Ordered members)
    (h : ∀ entry ∈ members, Fits depth entry.2) : Fits (depth + 1) (.object members) :=
  ⟨Value.isRegular_object.mpr ⟨hordered, fun entry hentry => (h entry hentry).1⟩,
    Value.depth_object_le_iff.mpr fun entry hentry => (h entry hentry).2⟩

theorem forall_mem_ofList {α : Type} (good : α → Prop) {entries : List (String × α)}
    (h : ∀ entry ∈ entries, good entry.2) : ∀ entry ∈ Members.ofList entries, good entry.2 := by
  have hfold : ∀ rest acc : List (String × α), (∀ entry ∈ rest, good entry.2) →
      (∀ entry ∈ acc, good entry.2) →
      ∀ entry ∈ rest.foldl (fun acc entry => Members.insert entry.1 entry.2 acc) acc, good entry.2 := by
    intro rest
    induction rest with
    | nil => exact fun acc _ hacc => hacc
    | cons entry rest ih =>
        intro acc hrest hacc
        obtain ⟨hentry, hrest⟩ := List.forall_mem_cons.mp hrest
        refine ih _ hrest fun other hother => ?_
        rcases Members.mem_insert hother with rfl | hother
        · exact hentry
        · exact hacc other hother
  exact hfold entries [] h nofun

theorem fits_number {depth : Nat} {n : Number} (h : n.IsFinite) : Fits depth n.value := by
  cases n with
  | int n => exact ⟨rfl, Nat.zero_le _⟩
  | float x => exact ⟨h, Nat.zero_le _⟩

/-- Values without brackets, and values in brackets if they are read as they should. -/
theorem yields_valueWith {depth : Nat} {inner : Option (Reader Value)}
    (h : ∀ item ∈ inner, ∃ d, depth = d + 1 ∧ Yields item (Fits d)) :
    Yields (valueWith inner) (Fits depth) := by
  have hplain : ∀ v : Value, v.isRegular → v.depth = 0 → Fits depth v :=
    fun v hv hdepth => ⟨hv, hdepth ▸ Nat.zero_le _⟩
  have hnumber : ∀ negative, Yields ((unsigned negative).map Number.value) (Fits depth) :=
    fun negative => (yields_unsigned negative).map fun n hn => fits_number hn
  have hwords : ∀ word v, v.isRegular → v.depth = 0 →
      Yields ((literal word).map fun _ => v) (Fits depth) :=
    fun word v hv hdepth => Yields.trivial.map fun _ _ => hplain v hv hdepth
  have htext : Yields (textBody.map .text) (Fits depth) :=
    Yields.trivial.map fun s _ => hplain (.text s) rfl rfl
  intro cs v rest hread
  unfold valueWith at hread
  split at hread
  · cases hread
  next c tail =>
    split at hread
    · exact hwords _ _ rfl rfl _ _ _ hread
    split at hread
    · exact hwords _ _ rfl rfl _ _ _ hread
    split at hread
    · exact hwords _ _ rfl rfl _ _ _ hread
    split at hread
    · exact htext _ _ _ hread
    split at hread
    · exact hnumber true _ _ _ hread
    split at hread
    · exact hnumber false _ _ _ hread
    split at hread
    · split at hread
      · cases hread
      next item =>
        obtain ⟨d, rfl, hitem⟩ := h item rfl
        exact (yields_listOf hitem).map (fun items => fits_list) _ _ _ hread
    split at hread
    · split at hread
      · cases hread
      next item =>
        obtain ⟨d, rfl, hitem⟩ := h item rfl
        exact (yields_objectOf hitem).map (fun entries hentries =>
          fits_object (Members.ordered_ofList entries) (forall_mem_ofList (Fits _) hentries)) _ _ _ hread
    · cases hread

theorem yields_value (depth : Nat) : Yields (value depth) (Fits depth) := by
  induction depth with
  | zero => exact yields_valueWith nofun
  | succ depth ih =>
      refine yields_valueWith fun item hitem => ⟨depth, rfl, ?_⟩
      cases hitem
      exact ih

end Localnet.Json
