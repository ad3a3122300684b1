import Localnet.Json.Document
import Localnet.Proofs.Json.Number
import Localnet.Proofs.Json.Text
import Localnet.Proofs.Json.Value
import Localnet.Proofs.Table

/-!
# Values that are written and read

What is written for a value reads back as a value that differs in its floats at most. Only a float, or
brackets that nest too deep, can keep it from being read.
-/

namespace Localnet.Json

/-- The result of a reader that leaves `rest` with something of which `good` holds, or fails where it
may. -/
def Gives {α : Type} (good : α → Prop) (rest : List Char) (mayFail : Prop) :
    Except Fault (α × List Char) → Prop
  | .ok (a, left) => good a ∧ left = rest
  | .error _ => mayFail

namespace Gives

variable {α β : Type} {good : α → Prop} {rest : List Char} {mayFail : Prop}
  {result : Except Fault (α × List Char)}

theorem bind {good' : β → Prop} {rest' : List Char} {next : α × List Char → Except Fault (β × List Char)}
    (h : Gives good rest mayFail result)
    (hnext : ∀ a, good a → Gives good' rest' mayFail (next (a, rest))) :
    Gives good' rest' mayFail (result >>= next) := by
  cases result with
  | ok found =>
      obtain ⟨a, left⟩ := found
      obtain ⟨hgood, rfl⟩ := h
      exact hnext a hgood
  | error fault => exact h

theorem mono {good' : α → Prop} {mayFail' : Prop} (h : Gives good rest mayFail result)
    (hgood : ∀ a, good a → good' a) (hfail : mayFail → mayFail') : Gives good' rest mayFail' result := by
  cases result with
  | ok found => exact ⟨hgood _ h.1, h.2⟩
  | error fault => exact hfail h

theorem map {good' : β → Prop} {reader : Reader α} {cs : List Char} {f : α → β}
    (h : Gives good rest mayFail (reader cs)) (hf : ∀ a, good a → good' (f a)) :
    Gives good' rest mayFail ((StateT.map f reader) cs) :=
  h.bind fun a ha => ⟨hf a ha, rfl⟩

theorem eq_ok {a : α} (h : Gives (· = a) rest False result) : result = .ok (a, rest) := by
  cases result with
  | ok found =>
      obtain ⟨b, left⟩ := found
      obtain ⟨rfl, rfl⟩ := h
      rfl
  | error fault => exact h.elim

theorem of_eq_ok {a : α} (h : result = .ok (a, rest)) (ha : good a) : Gives good rest mayFail result := by
  rw [h]
  exact ⟨ha, rfl⟩

end Gives

/-- A reader that takes the written form of a value as something of which `good` holds. -/
def ReadsBack {α : Type} (reader : Reader α) (v : Value) (good : α → Prop) (mayFail : Prop) : Prop :=
  ∀ rest, EndsNumber rest → Gives good rest mayFail (reader (v.chars ++ rest))

/-! ### Characters -/

theorem text_chars (s : String) (rest : List Char) :
    (Value.text s).chars ++ rest = '"' :: (s.toList.flatMap escaped ++ '"' :: rest) := by
  simp [Value.chars, writeText]

theorem list_chars (items : List Value) (rest : List Char) :
    (Value.list items).chars ++ rest = '[' :: (Value.itemChars items ++ ']' :: rest) := by
  simp [Value.chars]

theorem object_chars (members : List (String × Value)) (rest : List Char) :
    (Value.object members).chars ++ rest = '{' :: (Value.memberChars members ++ '}' :: rest) := by
  simp [Value.chars]

theorem skipSpace_cons {c : Char} (h : isSpace c = false) (cs : List Char) :
    skipSpace (c :: cs) = c :: cs := by
  rw [skipSpace, List.dropWhile_cons_of_neg (by simp [h])]

theorem isSpace_of_isDigit {c : Char} (h : isDigit c = true) : isSpace c = false := by
  by_contra hspace
  simp only [isSpace, Bool.not_eq_false, Bool.or_eq_true, beq_iff_eq] at hspace
  rcases hspace with ((rfl | rfl) | rfl) | rfl <;> cases h

/-- A character that a value may start with. -/
def StartsValue (c : Char) : Prop := isSpace c = false ∧ c ≠ ']'

theorem startsValue_of_isDigit {c : Char} (h : isDigit c = true) : StartsValue c := by
  refine ⟨isSpace_of_isDigit h, ?_⟩
  rintro rfl
  cases h

theorem writeInt_start (n : Int) : ∃ c cs, writeInt n = c :: cs ∧ StartsValue c := by
  unfold writeInt
  split
  · exact ⟨'-', _, rfl, by decide, by decide⟩
  · cases htext : Nat.toDigits 10 n.natAbs with
    | nil => exact absurd htext Nat.toDigits_ne_nil
    | cons c ds =>
        have hc := isDigit_of_mem_toDigits c (htext ▸ List.mem_cons_self)
        exact ⟨c, ds, rfl, startsValue_of_isDigit hc⟩

theorem writeFloat_start (x : Binary64) : ∃ c cs, writeFloat x = c :: cs ∧ StartsValue c := by
  unfold writeFloat
  split
  · split
    · exact ⟨'-', _, rfl, by decide, by decide⟩
    · obtain ⟨c, ds, tail, htext, hds, -⟩ := floatTail_writeDecimal floatFormat x.shortest
      rw [htext]
      exact ⟨c, _, rfl, startsValue_of_isDigit (hds c List.mem_cons_self)⟩
  · exact ⟨'n', _, rfl, by decide, by decide⟩

theorem chars_start (v : Value) : ∃ c cs, v.chars = c :: cs ∧ StartsValue c := by
  cases v with
  | null => exact ⟨'n', _, rfl, by decide, by decide⟩
  | bool b =>
      cases b with
      | false => exact ⟨'f', _, rfl, by decide, by decide⟩
      | true => exact ⟨'t', _, rfl, by decide, by decide⟩
  | int n => exact writeInt_start n.val
  | float x => exact writeFloat_start x
  | text s => exact ⟨'"', _, rfl, by decide, by decide⟩
  | list items => exact ⟨'[', _, rfl, by decide, by decide⟩
  | object members => exact ⟨'{', _, rfl, by decide, by decide⟩

/-! ### Items -/

/-- Items that stand behind others. -/
def laterItems (items : List Value) : List Char := items.flatMap fun v => ',' :: v.chars

theorem itemChars_cons (v : Value) (items : List Value) :
    Value.itemChars (v :: items) = v.chars ++ laterItems items := by
  induction items generalizing v with
  | nil => simp [Value.itemChars, laterItems]
  | cons w rest ih =>
      have hstep : Value.itemChars (v :: w :: rest) = v.chars ++ ',' :: Value.itemChars (w :: rest) := by
        simp [Value.itemChars]
      rw [hstep, ih, laterItems, laterItems, List.flatMap_cons, List.cons_append]

theorem endsNumber_laterItems (items : List Value) (rest : List Char) :
    EndsNumber (laterItems items ++ ']' :: rest) := by
  cases items with
  | nil => exact endsNumber_cons (by simp) rest
  | cons v items => exact endsNumber_cons (by simp) _

theorem listStep_first (v : Value) (rest : List Char) :
    listStep true (v.chars ++ rest) = .ok (.item, v.chars ++ rest) := by
  obtain ⟨c, cs, hchars, hspace, hclose⟩ := chars_start v
  rw [hchars, List.cons_append]
  simp only [listStep, skipSpace_cons hspace, if_neg hclose, if_true]

theorem listStep_later (v : Value) (rest : List Char) :
    listStep false (',' :: v.chars ++ rest) = .ok (.item, v.chars ++ rest) := by
  obtain ⟨c, cs, hchars, hspace, hclose⟩ := chars_start v
  rw [hchars]
  simp only [List.cons_append, listStep, skipSpace_cons (show isSpace ',' = false by decide),
    skipSpace_cons hspace]
  split
  next heq => exact absurd heq (by decide)
  next =>
    simp only [Bool.false_eq_true, if_false, if_true]
    split
    next heq => exact absurd (List.cons.inj heq).1 hclose
    next => rfl

variable {α : Type} {good : Value → α → Prop} {mayFail : Prop}

theorem gives_laterItems {item : Reader α} {values : List Value}
    (h : ∀ v ∈ values, ReadsBack item v (good v) mayFail) {fuel : Nat} (hfuel : values.length < fuel)
    (rest : List Char) :
    Gives (List.Forall₂ good values) (']' :: rest) mayFail
      (items item fuel false (laterItems values ++ ']' :: rest)) := by
  induction values generalizing fuel with
  | nil =>
      obtain ⟨fuel, rfl⟩ : ∃ k, fuel = k + 1 := ⟨fuel - 1, by rw [List.length_nil] at hfuel; omega⟩
      exact ⟨.nil, rfl⟩
  | cons v values ih =>
      rw [List.length_cons] at hfuel
      obtain ⟨fuel, rfl⟩ : ∃ k, fuel = k + 1 := ⟨fuel - 1, by omega⟩
      obtain ⟨hv, hvalues⟩ := List.forall_mem_cons.mp h
      have hstep := listStep_later v (laterItems values ++ ']' :: rest)
      rw [laterItems, List.flatMap_cons, List.append_assoc, ← laterItems, items, hstep]
      refine (hv _ (endsNumber_laterItems values rest)).bind fun a ha => ?_
      exact (ih hvalues (by omega)).bind fun as has => ⟨.cons ha has, rfl⟩

theorem length_le_laterItems (values : List Value) : values.length ≤ (laterItems values).length :=
  length_le_flatMap (fun _ => List.cons_ne_nil _ _) values

theorem gives_listOf {item : Reader α} {values : List Value}
    (h : ∀ v ∈ values, ReadsBack item v (good v) mayFail) (rest : List Char) :
    Gives (List.Forall₂ good values) rest mayFail
      (listOf item (Value.itemChars values ++ ']' :: rest)) := by
  have hitems : Gives (List.Forall₂ good values) (']' :: rest) mayFail
      (items item ((Value.itemChars values ++ ']' :: rest).length + 1) true
        (Value.itemChars values ++ ']' :: rest)) := by
    cases values with
    | nil => exact ⟨.nil, rfl⟩
    | cons v values =>
        obtain ⟨hv, hvalues⟩ := List.forall_mem_cons.mp h
        have hlength := length_le_laterItems values
        have hstep := listStep_first v (laterItems values ++ ']' :: rest)
        have hfuel : values.length < (v.chars ++ (laterItems values ++ ']' :: rest)).length := by
          simp only [List.length_append, List.length_cons]
          omega
        rw [itemChars_cons, List.append_assoc, items, hstep]
        refine (hv _ (endsNumber_laterItems values rest)).bind fun a ha => ?_
        exact (gives_laterItems hvalues hfuel rest).bind fun as has => ⟨.cons ha has, rfl⟩
  exact hitems.bind fun as has => ⟨has, rfl⟩

/-! ### Members -/

/-- A member of an object behind the quote that opens its name. -/
def memberTail (entry : String × Value) : List Char :=
  entry.1.toList.flatMap escaped ++ '"' :: ':' :: entry.2.chars

def laterMembers (members : List (String × Value)) : List Char :=
  members.flatMap fun entry => ',' :: '"' :: memberTail entry

theorem memberChars_cons (entry : String × Value) (members : List (String × Value)) :
    Value.memberChars (entry :: members) = '"' :: memberTail entry ++ laterMembers members := by
  induction members generalizing entry with
  | nil => simp [Value.memberChars, laterMembers, memberTail, writeText]
  | cons other rest ih =>
      have hstep : Value.memberChars (entry :: other :: rest) =
          '"' :: memberTail entry ++ ',' :: Value.memberChars (other :: rest) := by
        simp [Value.memberChars, memberTail, writeText]
      rw [hstep, ih, laterMembers, laterMembers, List.flatMap_cons]
      rfl

theorem endsNumber_laterMembers (members : List (String × Value)) (rest : List Char) :
    EndsNumber (laterMembers members ++ '}' :: rest) := by
  cases members with
  | nil => exact endsNumber_cons (by simp) rest
  | cons entry members => exact endsNumber_cons (by simp) _

theorem objectStep_first (rest : List Char) : objectStep true ('"' :: rest) = .ok (.item, rest) := rfl

theorem objectStep_laterMembers (entry : String × Value) (members : List (String × Value))
    (rest : List Char) :
    objectStep false (laterMembers (entry :: members) ++ rest) =
      .ok (.item, memberTail entry ++ (laterMembers members ++ rest)) := by
  rw [laterMembers, List.flatMap_cons, List.append_assoc, ← laterMembers]
  rfl

theorem textBody_memberTail (entry : String × Value) (rest : List Char) :
    textBody (memberTail entry ++ rest) = .ok (entry.1, ':' :: (entry.2.chars ++ rest)) := by
  rw [memberTail, List.append_assoc]
  exact textBody_written entry.1 _

theorem colon_cons (rest : List Char) : colon (':' :: rest) = .ok ((), rest) := rfl

theorem length_le_laterMembers (members : List (String × Value)) :
    members.length ≤ (laterMembers members).length :=
  length_le_flatMap (fun _ => List.cons_ne_nil _ _) members

def GoodMember (good : Value → α → Prop) (entry : String × Value) (read : String × α) : Prop :=
  read.1 = entry.1 ∧ good entry.2 read.2

/-- One written member is read, and then the others. -/
theorem gives_member {value : Reader α} {entry : String × Value} {entries : List (String × Value)}
    (hentry : ReadsBack value entry.2 (good entry.2) mayFail) {fuel : Nat} {rest : List Char}
    (hothers : Gives (List.Forall₂ (GoodMember good) entries) ('}' :: rest) mayFail
      (members value fuel false (laterMembers entries ++ '}' :: rest)))
    {first : Bool} {cs : List Char}
    (hstep : objectStep first cs = .ok (.item, memberTail entry ++ (laterMembers entries ++ '}' :: rest))) :
    Gives (List.Forall₂ (GoodMember good) (entry :: entries)) ('}' :: rest) mayFail
      (members value (fuel + 1) first cs) := by
  have hname : Gives (· = entry.1) (':' :: (entry.2.chars ++ (laterMembers entries ++ '}' :: rest)))
      mayFail (textBody (memberTail entry ++ (laterMembers entries ++ '}' :: rest))) :=
    .of_eq_ok (textBody_memberTail entry _) rfl
  rw [members, hstep]
  refine hname.bind fun name hread => ?_
  subst hread
  refine (hentry _ (endsNumber_laterMembers entries rest)).bind fun a ha => ?_
  exact hothers.bind fun as has => ⟨.cons ⟨rfl, ha⟩ has, rfl⟩

theorem gives_laterMembers {value : Reader α} {entries : List (String × Value)}
    (h : ∀ entry ∈ entries, ReadsBack value entry.2 (good entry.2) mayFail) {fuel : Nat}
    (hfuel : entries.length < fuel) (rest : List Char) :
    Gives (List.Forall₂ (GoodMember good) entries) ('}' :: rest) mayFail
      (members value fuel false (laterMembers entries ++ '}' :: rest)) := by
  induction entries generalizing fuel with
  | nil =>
      obtain ⟨fuel, rfl⟩ : ∃ k, fuel = k + 1 := ⟨fuel - 1, by rw [List.length_nil] at hfuel; omega⟩
      exact ⟨.nil, rfl⟩
  | cons entry entries ih =>
      rw [List.length_cons] at hfuel
      obtain ⟨fuel, rfl⟩ : ∃ k, fuel = k + 1 := ⟨fuel - 1, by omega⟩
      obtain ⟨hentry, hentries⟩ := List.forall_mem_cons.mp h
      exact gives_member hentry (ih hentries (by omega)) (objectStep_laterMembers entry entries _)

theorem gives_objectOf {value : Reader α} {entries : List (String × Value)}
    (h : ∀ entry ∈ entries, ReadsBack value entry.2 (good entry.2) mayFail) (rest : List Char) :
    Gives (List.Forall₂ (GoodMember good) entries) rest mayFail
      (objectOf value (Value.memberChars entries ++ '}' :: rest)) := by
  have hmembers : Gives (List.Forall₂ (GoodMember good) entries) ('}' :: rest) mayFail
      (members value ((Value.memberChars entries ++ '}' :: rest).length + 1) true
        (Value.memberChars entries ++ '}' :: rest)) := by
    cases entries with
    | nil => exact ⟨.nil, rfl⟩
    | cons entry entries =>
        obtain ⟨hentry, hentries⟩ := List.forall_mem_cons.mp h
        have hlength := length_le_laterMembers entries
        have hfuel : entries.length <
            ('"' :: (memberTail entry ++ (laterMembers entries ++ '}' :: rest))).length := by
          simp only [List.length_append, List.length_cons]
          omega
        rw [memberChars_cons, List.append_assoc, List.cons_append]
        exact gives_member hentry (gives_laterMembers hentries hfuel rest) (objectStep_first _)
  exact hmembers.bind fun as has => ⟨has, rfl⟩

/-! ### Values -/

theorem valueWith_digit (inner : Option (Reader Value)) {c : Char} (hc : isDigit c = true)
    (cs : List Char) :
    valueWith inner (c :: cs) = StateT.map Number.value (unsigned false) (c :: cs) := by
  have hne : c ≠ 'n' ∧ c ≠ 't' ∧ c ≠ 'f' ∧ c ≠ '"' ∧ c ≠ '-' := by
    refine ⟨?_, ?_, ?_, ?_, ?_⟩ <;> (rintro rfl; cases hc)
  obtain ⟨hn, ht, hf, hquote, hminus⟩ := hne
  simp only [valueWith, skipSpace_cons (isSpace_of_isDigit hc), if_neg hn, if_neg ht, if_neg hf,
    if_neg hquote, if_neg hminus, if_pos hc]

theorem signed_natAbs (n : Integer) :
    (signed (decide (n.val < 0)) n.val.natAbs).value = .int n := by
  obtain ⟨n, hn⟩ := n
  have hlt : n.natAbs < 0x10000000000000000 := by omega
  unfold signed
  by_cases hneg : n < 0
  · have hbound : 0 < n.natAbs ∧ n.natAbs ≤ 0x8000000000000000 := by omega
    have hval : -(n.natAbs : Int) = n := by omega
    simp only [decide_eq_true hneg, dif_pos hlt, if_true, dif_pos hbound, Number.value, hval]
  · have hval : (n.natAbs : Int) = n := by omega
    simp only [decide_eq_false hneg, dif_pos hlt, Bool.false_eq_true, if_false, Number.value,
      Integer.ofNat, hval]

theorem readsBack_int (inner : Option (Reader Value)) (n : Integer) (mayFail : Prop) :
    ReadsBack (valueWith inner) (.int n) (· = .int n) mayFail := by
  intro rest hrest
  have hlt : n.val.natAbs < wordLimit := by
    have hbounded := n.bounded
    unfold wordLimit
    omega
  have hread := fun negative => unsigned_toDigits negative hlt hrest
  have hsigned := signed_natAbs n
  rw [Value.chars, writeInt]
  by_cases hneg : n.val < 0
  · rw [decide_eq_true hneg] at hsigned
    rw [if_pos hneg]
    exact Gives.map (.of_eq_ok (hread true) rfl) fun a ha => by rw [← ha, hsigned]
  · rw [decide_eq_false hneg] at hsigned
    rw [if_neg hneg, List.nil_append]
    have hdigits := isDigit_of_mem_toDigits (n := n.val.natAbs)
    have hread := hread false
    cases htext : Nat.toDigits 10 n.val.natAbs with
    | nil => exact absurd htext Nat.toDigits_ne_nil
    | cons c ds =>
        rw [htext] at hread hdigits
        rw [List.cons_append, valueWith_digit inner (hdigits c List.mem_cons_self)]
        exact Gives.map (.of_eq_ok hread rfl) fun a ha => by rw [← ha, hsigned]

theorem gives_of_onlyFloat {result : Except Fault (Number × List Char)} {rest : List Char}
    (h : OnlyFloat rest result) : Gives (fun n => ∃ x, n = .float x) rest True result := by
  cases result with
  | ok found => exact h found.1 found.2 rfl
  | error fault => exact trivial

theorem readsBack_float (inner : Option (Reader Value)) {x : Binary64} (hx : x.isFinite) :
    ReadsBack (valueWith inner) (.float x) (fun w => ∃ y, w = .float y) True := by
  intro rest hrest
  obtain ⟨c, ds, tail, htext, hds, htail⟩ := floatTail_writeDecimal floatFormat x.shortest
  have hread := fun negative => gives_of_onlyFloat (onlyFloat_unsigned negative hds htail hrest)
  have hvalue : ∀ n : Number, (∃ y, n = .float y) → ∃ y, n.value = .float y := by
    rintro n ⟨y, rfl⟩
    exact ⟨y, rfl⟩
  rw [Value.chars, writeFloat, if_pos hx, htext]
  by_cases hneg : x.isNegative
  · rw [if_pos hneg, List.append_assoc, List.append_assoc]
    exact Gives.map (hread true) hvalue
  · rw [if_neg hneg, List.nil_append, List.append_assoc]
    have hdigit := valueWith_digit inner (hds c List.mem_cons_self) (ds ++ (tail ++ rest))
    rw [List.cons_append, hdigit]
    exact Gives.map (hread false) hvalue

theorem forall₂_blur {values read : List Value} (h : List.Forall₂ Value.SameUpToFloats values read) :
    read.map Value.blur = values.map Value.blur := by
  induction h with
  | nil => rfl
  | cons h _ ih => rw [List.map_cons, List.map_cons, h, ih]

theorem forall₂_member {entries read : List (String × Value)}
    (h : List.Forall₂ (GoodMember Value.SameUpToFloats) entries read) :
    (read.map fun entry => (entry.1, entry.2.blur)) =
      entries.map fun entry => (entry.1, entry.2.blur) := by
  induction h with
  | nil => rfl
  | cons h _ ih => rw [List.map_cons, List.map_cons, h.1, h.2, ih]

theorem forall₂_names {good : Value → α → Prop} {entries : List (String × Value)}
    {read : List (String × α)} (h : List.Forall₂ (GoodMember good) entries read) :
    read.map (·.1) = entries.map (·.1) := by
  induction h with
  | nil => rfl
  | cons h _ ih => rw [List.map_cons, List.map_cons, h.1, ih]

theorem ordered_iff_names {entries : List (String × α)} :
    Members.Ordered entries ↔ (entries.map (·.1)).Pairwise (· < ·) :=
  List.pairwise_map.symm

theorem lt_depth_list {items : List Value} {v : Value} (hv : v ∈ items) {n : Nat} (h : n < v.depth) :
    n + 1 < (Value.list items).depth := by
  by_contra hle
  have hitems := Value.depth_list_le_iff.mp (Nat.not_lt.mp hle) v hv
  omega

theorem lt_depth_object {members : List (String × Value)} {entry : String × Value}
    (hentry : entry ∈ members) {n : Nat} (h : n < entry.2.depth) :
    n + 1 < (Value.object members).depth := by
  by_contra hle
  have hmembers := Value.depth_object_le_iff.mp (Nat.not_lt.mp hle) entry hentry
  omega

/-- What may keep a written value from being read: floats, or brackets that nest too deep. -/
def Unsure (depth : Nat) (v : Value) : Prop := ¬ v.isFloatFree ∨ depth < v.depth

theorem readsBack_list {items : List Value} {depth : Nat}
    (h : ∀ v ∈ items, ReadsBack (value depth) v v.SameUpToFloats (Unsure depth v)) :
    ReadsBack (value (depth + 1)) (.list items) (Value.list items).SameUpToFloats
      (Unsure (depth + 1) (.list items)) := by
  have hitem : ∀ v ∈ items, ReadsBack (value depth) v v.SameUpToFloats
      (Unsure (depth + 1) (.list items)) := by
    intro v hmem tail htail
    refine (h v hmem tail htail).mono (fun _ => id) ?_
    exact Or.imp (mt fun hfree => Value.isFloatFree_list.mp hfree v hmem) (lt_depth_list hmem)
  have hlist : ∀ read, List.Forall₂ Value.SameUpToFloats items read →
      (Value.list items).SameUpToFloats (.list read) := by
    intro read hread
    rw [Value.SameUpToFloats, Value.blur_list, Value.blur_list, forall₂_blur hread]
  intro rest _
  rw [list_chars]
  exact Gives.map (gives_listOf hitem rest) hlist

theorem readsBack_object {members : List (String × Value)} {depth : Nat}
    (hordered : Members.Ordered members)
    (h : ∀ entry ∈ members,
      ReadsBack (value depth) entry.2 entry.2.SameUpToFloats (Unsure depth entry.2)) :
    ReadsBack (value (depth + 1)) (.object members) (Value.object members).SameUpToFloats
      (Unsure (depth + 1) (.object members)) := by
  have hmember : ∀ entry ∈ members, ReadsBack (value depth) entry.2 entry.2.SameUpToFloats
      (Unsure (depth + 1) (.object members)) := by
    intro entry hmem tail htail
    refine (h entry hmem tail htail).mono (fun _ => id) ?_
    exact Or.imp (mt fun hfree => Value.isFloatFree_object.mp hfree entry hmem) (lt_depth_object hmem)
  have hobject : ∀ read, List.Forall₂ (GoodMember Value.SameUpToFloats) members read →
      (Value.object members).SameUpToFloats (.object (Members.ofList read)) := by
    intro read hread
    have hkept : Members.Ordered read := by
      rw [ordered_iff_names, forall₂_names hread]
      exact ordered_iff_names.mp hordered
    rw [Value.SameUpToFloats, Members.ofList_of_ordered hkept, Value.blur_object, Value.blur_object,
      forall₂_member hread]
  intro rest _
  rw [object_chars]
  change Gives _ _ _ (StateT.map (fun read => Value.object (Members.ofList read))
    (objectOf (value depth)) (Value.memberChars members ++ '}' :: rest))
  exact Gives.map (gives_objectOf hmember rest) hobject

/-- A value reads back as one that differs in its floats at most. Without floats and with brackets that
the depth allows it is read. -/
theorem readsBack_value {v : Value} (hv : v.isRegular) (depth : Nat) :
    ReadsBack (value depth) v v.SameUpToFloats (Unsure depth v) := by
  -- by the value, for every depth: what is inside brackets is read one level further in
  induction v using Value.inductionOn generalizing depth with
  | null =>
      intro rest _
      cases depth <;> exact ⟨rfl, rfl⟩
  | bool b =>
      intro rest _
      cases b <;> cases depth <;> exact ⟨rfl, rfl⟩
  | int n =>
      intro rest hrest
      cases depth <;>
        exact (readsBack_int _ n _ rest hrest).mono (fun w hw => congrArg Value.blur hw) id
  | float x =>
      intro rest hrest
      cases depth <;>
        exact (readsBack_float _ hv rest hrest).mono (fun w ⟨y, hy⟩ => by rw [hy]; rfl)
          fun _ => .inl nofun
  | text s =>
      intro rest _
      have hread : Gives (· = s) rest (Unsure depth (.text s))
          (textBody (s.toList.flatMap escaped ++ '"' :: rest)) :=
        .of_eq_ok (textBody_written s rest) rfl
      rw [text_chars]
      cases depth <;> exact Gives.map hread fun _ h => by rw [h]; rfl
  | list items ih =>
      cases depth with
      | zero => exact fun rest _ => .inr (Nat.succ_pos _)
      | succ depth =>
          exact readsBack_list fun v hmem => ih v hmem (Value.isRegular_list.mp hv v hmem) depth
  | object members ih =>
      obtain ⟨hordered, hmembers⟩ := Value.isRegular_object.mp hv
      cases depth with
      | zero => exact fun rest _ => .inr (Nat.succ_pos _)
      | succ depth =>
          exact readsBack_object hordered fun entry hmem => ih entry hmem (hmembers entry hmem) depth

/-- A document that is nothing but a written value. -/
theorem gives_of_written {α : Type} {reader : Reader α} {v : Value} {good : α → Prop} {mayFail : Prop}
    (h : ReadsBack reader v good mayFail) :
    match read reader v.write with
    | .ok a => good a
    | .error _ => mayFail := by
  have hread := h [] endsNumber_nil
  rw [List.append_nil] at hread
  unfold read Reader.run? Value.write
  rw [String.toList_ofList]
  cases hresult : reader v.chars with
  | ok found =>
      obtain ⟨a, left⟩ := found
      rw [hresult] at hread
      obtain ⟨hgood, rfl⟩ := hread
      exact hgood
  | error fault =>
      rw [hresult] at hread
      exact hread

/-- A value without floats whose brackets the reader takes is read from its written form. -/
theorem parse_written {v : Value} (hv : v.isRegular) (hfree : v.isFloatFree)
    (hdepth : v.depth ≤ depthLimit) : Value.parse v.write = .ok v := by
  have hread := gives_of_written (readsBack_value hv depthLimit)
  unfold Value.parse
  cases hresult : read (value depthLimit) v.write with
  | ok w =>
      rw [hresult] at hread
      rw [hread.eq hfree]
  | error e =>
      rw [hresult] at hread
      exact absurd hread (not_or.mpr ⟨not_not.mpr hfree, Nat.not_lt.mpr hdepth⟩)

theorem sameUpToFloats_of_parse_write {v w : Value} (hv : v.isRegular)
    (h : Value.parse v.write = .ok w) : v.SameUpToFloats w := by
  have hread := gives_of_written (readsBack_value hv depthLimit)
  rw [Value.parse] at h
  rw [h] at hread
  exact hread

end Localnet.Json
