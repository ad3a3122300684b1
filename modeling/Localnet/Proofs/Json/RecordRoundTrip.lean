import Localnet.Json.Record
import Localnet.Proofs.Json.RoundTrip
import Localnet.Proofs.Json.Yields

/-!
# Records that are written and read

An object whose members are fields of a record, each once, puts every field that is written into the
defaults.
-/

namespace Localnet.Json

/-- A reader that takes the written form of a value as one thing. -/
def Reads {α : Type} (reader : Reader α) (v : Value) (a : α) : Prop := ReadsBack reader v (· = a) False

variable {α σ : Type} {v : Value} {a : α} {depth : Nat}

theorem Reads.eq_ok {reader : Reader α} (h : Reads reader v a) {rest : List Char}
    (hrest : EndsNumber rest) : reader (v.chars ++ rest) = .ok (a, rest) :=
  (h rest hrest).eq_ok

theorem Reads.map {β : Type} {reader : Reader α} (h : Reads reader v a) (f : α → β) :
    Reads (reader.map f) v (f a) :=
  fun rest hrest => Gives.map (h rest hrest) fun _ hb => congrArg f hb

theorem reads_value (hv : Fits depth v) (hfree : v.isFloatFree) : Reads (value depth) v v := by
  intro rest hrest
  refine (readsBack_value hv.1 depth rest hrest).mono (fun w hw => hw.eq hfree) ?_
  exact not_or.mpr ⟨not_not.mpr hfree, Nat.not_lt.mpr hv.2⟩

theorem reads_text (s : String) : Reads text (.text s) s := by
  intro rest _
  rw [text_chars]
  exact .of_eq_ok (textBody_written s rest) rfl

theorem reads_bool (b : Bool) : Reads bool (.bool b) b := by
  intro rest _
  cases b <;> exact ⟨rfl, rfl⟩

theorem reads_optional_text {reader : Reader α} {s : String} (h : Reads reader (.text s) a) :
    Reads (optional reader) (.text s) (some a) := by
  intro rest hrest
  have hread := h.map some rest hrest
  rw [text_chars] at hread ⊢
  exact hread

theorem reads_table {t : Table Value} (ht : Fits depth (.object t.entries))
    (hfree : (Value.object t.entries).isFloatFree) : Reads (table depth) (.object t.entries) t := by
  obtain ⟨depth, rfl⟩ : ∃ d, depth = d + 1 := by
    cases depth with
    | zero => exact absurd ht.2 (Nat.not_succ_le_zero _)
    | succ d => exact ⟨d, rfl⟩
  have hmember : ∀ entry ∈ t.entries, ReadsBack (value depth) entry.2 (· = entry.2) False := by
    intro entry hentry
    refine reads_value ⟨?_, Value.depth_object_le_iff.mp ht.2 entry hentry⟩
      (Value.isFloatFree_object.mp hfree entry hentry)
    exact (Value.isRegular_object.mp ht.1).2 entry hentry
  have htable : ∀ entries, List.Forall₂ (GoodMember fun v w => w = v) t.entries entries →
      Table.ofList entries = t := by
    intro entries hentries
    have heq : t.entries = entries := by
      refine List.forall₂_eq_eq_eq ▸ hentries.imp fun x y hxy => ?_
      exact Prod.ext hxy.1.symm hxy.2.symm
    subst heq
    exact Table.ext (Members.ofList_of_ordered t.ordered)
  intro rest _
  have hread : Gives (List.Forall₂ (GoodMember fun v w => w = v) t.entries) rest False
      (objectOf (value depth) (Value.memberChars t.entries ++ '}' :: rest)) :=
    gives_objectOf hmember rest
  rw [object_chars]
  exact Gives.map hread htable

theorem Reads.unique {reader : Reader α} : Relator.RightUnique (Reads reader) := by
  intro v a b ha hb
  have heq := (ha.eq_ok endsNumber_nil).symm.trans (hb.eq_ok endsNumber_nil)
  exact (Prod.mk.inj (Except.ok.inj heq)).1

theorem reads_list {item : Nat → Reader α} {toValue : α → Value} {as : List α}
    (h : ∀ a ∈ as, Reads (item depth) (toValue a) a) :
    Reads (list item (depth + 1)) (.list (as.map toValue)) as := by
  have hitem : ∀ v ∈ as.map toValue, ReadsBack (item depth) v (Reads (item depth) v) False := by
    intro v hv rest hrest
    obtain ⟨a, ha, rfl⟩ := List.mem_map.mp hv
    exact (h a ha rest hrest).mono (fun b hb => hb ▸ h a ha) id
  have hall : List.Forall₂ (Reads (item depth)) (as.map toValue) as :=
    List.forall₂_map_left_iff.mpr (List.forall₂_same.mpr h)
  intro rest _
  rw [list_chars]
  exact (gives_listOf hitem rest).mono (fun bs hbs => Reads.unique.forall₂ hbs hall) id

/-! ### Fields -/

/-- A written member is one of the fields, and its value is put into a record as it should. -/
def TakenAs (fields : List (Field σ)) (entry : String × Value) (put : σ → σ) : Prop :=
  ∃ field, fields.find? (·.name = entry.1) = some field ∧ Reads field.read entry.2 put

variable {fields : List (Field σ)} {entry : String × Value} {put : σ → σ}
  {entries : List (String × Value)} {puts : List (σ → σ)}

theorem fieldMembers_item (h : TakenAs fields entry put) {seen : List String} (hseen : entry.1 ∉ seen)
    {first : Bool} {cs rest : List Char}
    (hstep : objectStep first cs = .ok (.item, memberTail entry ++ rest))
    (hrest : EndsNumber rest) (fuel : Nat) (record : σ) :
    fieldMembers fields (fuel + 1) seen first record cs =
      fieldMembers fields fuel (entry.1 :: seen) false (put record) rest := by
  obtain ⟨field, hfield, hread⟩ := h
  have hput := hread.eq_ok hrest
  simp only [fieldMembers, bind, Except.bind, hstep, textBody_memberTail, hfield, if_neg hseen, colon_cons,
    hput]

theorem fieldMembers_written (h : List.Forall₂ (TakenAs fields) entries puts)
    (hnodup : (entries.map (·.1)).Nodup) {seen : List String} (hseen : ∀ entry ∈ entries, entry.1 ∉ seen)
    {fuel : Nat} (hfuel : entries.length < fuel) (record : σ) (rest : List Char) :
    fieldMembers fields fuel seen false record (laterMembers entries ++ '}' :: rest) =
      .ok (puts.foldl (fun record put => put record) record, '}' :: rest) := by
  -- `seen` grows by the name of each member, so the names ahead have to stay out of it
  induction h generalizing seen fuel record with
  | nil =>
      obtain ⟨fuel, rfl⟩ : ∃ k, fuel = k + 1 := ⟨fuel - 1, by rw [List.length_nil] at hfuel; omega⟩
      rfl
  | @cons entry put entries puts h _ ih =>
      rw [List.length_cons] at hfuel
      obtain ⟨fuel, rfl⟩ : ∃ k, fuel = k + 1 := ⟨fuel - 1, by omega⟩
      obtain ⟨hnot, hnodup⟩ := List.nodup_cons.mp hnodup
      obtain ⟨hentry, hentries⟩ := List.forall_mem_cons.mp hseen
      have hfresh : ∀ other ∈ entries, other.1 ∉ entry.1 :: seen := by
        intro other hother hmem
        rcases List.mem_cons.mp hmem with heq | hmem
        · exact hnot (List.mem_map.mpr ⟨other, hother, heq⟩)
        · exact hentries other hother hmem
      have hstep := objectStep_laterMembers entry entries ('}' :: rest)
      rw [fieldMembers_item h hentry hstep (endsNumber_laterMembers entries rest),
        ih hnodup hfresh (by omega), List.foldl_cons]

theorem recordObject_written (h : List.Forall₂ (TakenAs fields) entries puts)
    (hnodup : (entries.map (·.1)).Nodup) (defaults : σ) (rest : List Char) :
    recordObject fields defaults (Value.memberChars entries ++ '}' :: rest) =
      .ok (puts.foldl (fun record put => put record) defaults, rest) := by
  have hmembers : ∀ fuel, entries.length < fuel →
      fieldMembers fields fuel [] true defaults (Value.memberChars entries ++ '}' :: rest) =
        .ok (puts.foldl (fun record put => put record) defaults, '}' :: rest) := by
    intro fuel hfuel
    obtain ⟨fuel, rfl⟩ : ∃ k, fuel = k + 1 := ⟨fuel - 1, by omega⟩
    cases h with
    | nil => rfl
    | @cons entry put entries puts hentry hentries =>
        obtain ⟨hnot, hnodup⟩ := List.nodup_cons.mp hnodup
        rw [List.length_cons] at hfuel
        have hfresh : ∀ other ∈ entries, other.1 ∉ [entry.1] := by
          intro other hother hmem
          exact hnot (List.mem_map.mpr ⟨other, hother, List.mem_singleton.mp hmem⟩)
        have hstep : objectStep true (Value.memberChars (entry :: entries) ++ '}' :: rest) =
            .ok (.item, memberTail entry ++ (laterMembers entries ++ '}' :: rest)) := by
          rw [memberChars_cons, List.append_assoc, List.cons_append, objectStep_first]
        rw [fieldMembers_item hentry List.not_mem_nil hstep (endsNumber_laterMembers entries rest),
          fieldMembers_written hentries hnodup hfresh (by omega), List.foldl_cons]
  have hlength : entries.length ≤ (Value.memberChars entries).length := by
    cases entries with
    | nil => exact Nat.zero_le _
    | cons entry entries =>
        have hle := length_le_laterMembers entries
        rw [memberChars_cons, List.length_append, List.length_cons, List.length_cons]
        omega
  unfold recordObject
  rw [hmembers _ (by rw [List.length_append]; omega)]
  rfl

/-- An object that has fields of a record as its members is read as the defaults with all of them put in. -/
theorem reads_record {fields : Nat → List (Field σ)}
    (h : List.Forall₂ (TakenAs (fields depth)) entries puts) (hnodup : (entries.map (·.1)).Nodup)
    (expected : String) (defaults : σ) :
    Reads (record expected fields defaults (depth + 1)) (.object entries)
      (puts.foldl (fun record put => put record) defaults) := by
  intro rest _
  rw [object_chars]
  exact .of_eq_ok (recordObject_written h hnodup defaults rest) rfl

end Localnet.Json
