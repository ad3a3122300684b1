import Localnet.Config.Toml
import Localnet.Proofs.Json.Yields
import Localnet.Proofs.Table

/-!
# Records in TOML documents

Every TOML value is one that a JSON document can hold, up to its depth. What every field of a record
keeps holds of the record, and fields that are alike make records that are alike.
-/

namespace Localnet.Toml

/-! ### Values -/

theorem toJsonMembers_eq_mapValues (members : List (String × Value)) :
    Value.toJsonMembers members = Members.mapValues Value.toJson members := by
  induction members with
  | nil => rfl
  | cons entry rest ih => rw [Value.toJsonMembers, ih, Members.mapValues_cons]

mutual

theorem isRegular_toJson : (v : Value) → v.toJson.isRegular
  | .text _ | .int _ | .bool _ => rfl
  | .float x => by
      rw [Value.toJson]
      split
      next hx => exact hx
      next => rfl
  | .datetime _ => Json.Value.isRegular_object.mpr ⟨List.pairwise_singleton .., by simp; rfl⟩
  | .list items => Json.Value.isRegular_list.mpr (isRegular_toJsonItems items)
  | .table members => by
      have hmembers := Json.forall_mem_ofList (fun v : Json.Value => v.isRegular)
        (isRegular_toJsonMembers members)
      rw [Value.toJson, Json.Value.isRegular_object]
      exact ⟨Members.ordered_ofList _, hmembers⟩

theorem isRegular_toJsonItems : (items : List Value) → ∀ v ∈ Value.toJsonItems items, v.isRegular
  | [] => nofun
  | item :: rest => List.forall_mem_cons.mpr ⟨isRegular_toJson item, isRegular_toJsonItems rest⟩

theorem isRegular_toJsonMembers :
    (members : List (String × Value)) → ∀ entry ∈ Value.toJsonMembers members, entry.2.isRegular
  | [] => nofun
  | (_, v) :: rest => List.forall_mem_cons.mpr ⟨isRegular_toJson v, isRegular_toJsonMembers rest⟩

end

/-! ### What fields keep -/

variable {σ τ : Type}

def Field.Keeps (good : σ → Prop) (field : Field σ) : Prop :=
  ∀ v put, field.put v = some put → ∀ record, good record → good (put record)

variable {good : σ → Prop} {record : σ}

theorem Field.keeps_of {α : Type} {name : String} {decode : Value → Option α} {put : α → σ → σ}
    (h : ∀ v a, decode v = some a → ∀ record, good record → good (put a record)) :
    (Field.of name decode put).Keeps good := by
  intro v f hf
  obtain ⟨a, ha, rfl⟩ := Option.map_eq_some_iff.mp hf
  exact h v a ha

theorem putAll_keeps {values : List (Field σ × Value)} (hfields : ∀ entry ∈ values, entry.1.Keeps good)
    (hrecord : good record) {result : σ} (h : putAll values record = some result) : good result := by
  induction values generalizing record with
  | nil =>
      cases h
      exact hrecord
  | cons entry rest ih =>
      obtain ⟨hentry, hrest⟩ := List.forall_mem_cons.mp hfields
      obtain ⟨next, hnext, h⟩ := Option.bind_eq_some_iff.mp h
      obtain ⟨put, hput, rfl⟩ := Option.map_eq_some_iff.mp hnext
      exact ih hrest (hentry _ _ hput _ hrecord) h

theorem record_keeps {fields : List (Field σ)} {defaults : σ} (hfields : ∀ field ∈ fields, field.Keeps good)
    (hdefaults : good defaults) {v : Value} {result : σ} (h : Toml.record fields defaults v = some result) :
    good result := by
  unfold Toml.record at h
  split at h
  next members =>
    refine putAll_keeps (fun entry hentry => ?_) hdefaults h
    obtain ⟨member, -, hmember⟩ := List.mem_filterMap.mp hentry
    obtain ⟨field, hfield, rfl⟩ := Option.map_eq_some_iff.mp hmember
    exact hfields field (List.mem_of_find?_eq_some hfield)
  next items =>
    refine putAll_keeps (fun entry hentry => ?_) hdefaults h
    exact hfields entry.1 (List.of_mem_zip (show (entry.1, entry.2) ∈ _ from hentry)).1
  next =>
    cases h
    exact hdefaults
  next => cases h

theorem items_keep {α : Type} {good : α → Prop} {decode : Value → Option α}
    (h : ∀ v a, decode v = some a → good a) {v : Value} {as : List α} (hitems : items decode v = some as) :
    ∀ a ∈ as, good a := by
  unfold items at hitems
  split at hitems
  next values =>
    induction values generalizing as with
    | nil =>
        cases hitems
        exact nofun
    | cons v rest ih =>
        rw [List.mapM_cons] at hitems
        obtain ⟨a, ha, hitems⟩ := Option.bind_eq_some_iff.mp hitems
        obtain ⟨others, hothers, hitems⟩ := Option.bind_eq_some_iff.mp hitems
        cases hitems
        exact List.forall_mem_cons.mpr ⟨h v a ha, ih hothers⟩
  next => cases hitems

/-! ### Fields that are alike -/

/-- Fields of one name that put values into records alike. -/
structure Field.Alike (T : σ → τ → Prop) (x : Field σ) (y : Field τ) : Prop where
  name : x.name = y.name
  put : ∀ v, Option.Rel (fun put put' => ∀ record record', T record record' → T (put record) (put' record'))
    (x.put v) (y.put v)

variable {T : σ → τ → Prop}

theorem Field.alike_of {α β : Type} {R : α → β → Prop} {decode : Value → Option α}
    {decode' : Value → Option β} (h : ∀ v, Option.Rel R (decode v) (decode' v)) {put : α → σ → σ}
    {put' : β → τ → τ}
    (hput : ∀ a b, R a b → ∀ record record', T record record' → T (put a record) (put' b record'))
    (name : String) : Field.Alike T (.of name decode put) (.of name decode' put') := by
  refine ⟨rfl, fun v => ?_⟩
  have hv := h v
  change Option.Rel _ ((decode v).map put) ((decode' v).map put')
  generalize decode v = a at hv ⊢
  generalize decode' v = b at hv ⊢
  cases hv with
  | none => exact .none
  | some hab => exact .some (hput _ _ hab)

variable {xs : List (Field σ)} {ys : List (Field τ)} {record' : τ}

theorem Field.Alike.find? (h : List.Forall₂ (Field.Alike T) xs ys) (name : String) :
    Option.Rel (Field.Alike T) (xs.find? (·.name = name)) (ys.find? (·.name = name)) := by
  induction h with
  | nil => exact .none
  | cons h _ ih =>
      rw [List.find?_cons, List.find?_cons, h.name]
      split
      · exact .some h
      · exact ih

/-- Fields that are alike with the same values. -/
def PairAlike (T : σ → τ → Prop) (x : Field σ × Value) (y : Field τ × Value) : Prop :=
  Field.Alike T x.1 y.1 ∧ x.2 = y.2

theorem putAll_alike {values : List (Field σ × Value)} {values' : List (Field τ × Value)}
    (h : List.Forall₂ (PairAlike T) values values') (hrecord : T record record') :
    Option.Rel T (putAll values record) (putAll values' record') := by
  induction h generalizing record record' with
  | nil => exact .some hrecord
  | @cons x y _ _ hpair _ ih =>
      obtain ⟨hfield, hvalue⟩ := hpair
      have hput := hfield.put x.2
      rw [putAll, putAll, List.foldlM_cons, List.foldlM_cons, ← hvalue]
      generalize x.1.put x.2 = put at hput ⊢
      generalize y.1.put x.2 = put' at hput ⊢
      cases hput with
      | none => exact .none
      | some hput => exact ih (hput record record' hrecord)

theorem forall₂_filterMap (h : List.Forall₂ (Field.Alike T) xs ys) (members : List (String × Value)) :
    List.Forall₂ (PairAlike T)
      (members.filterMap fun (name, v) => (xs.find? (·.name = name)).map (·, v))
      (members.filterMap fun (name, v) => (ys.find? (·.name = name)).map (·, v)) := by
  induction members with
  | nil => exact .nil
  | cons member rest ih =>
      have hfound := Field.Alike.find? h member.1
      simp only [List.filterMap_cons]
      generalize xs.find? (·.name = member.1) = x at hfound ⊢
      generalize ys.find? (·.name = member.1) = y at hfound ⊢
      cases hfound with
      | none => exact ih
      | some hfield => exact .cons ⟨hfield, rfl⟩ ih

theorem forall₂_zip (h : List.Forall₂ (Field.Alike T) xs ys) (items : List Value) :
    List.Forall₂ (PairAlike T) (xs.zip items) (ys.zip items) := by
  induction h generalizing items with
  | nil => exact .nil
  | cons hfield _ ih =>
      cases items with
      | nil => exact .nil
      | cons v items => exact .cons ⟨hfield, rfl⟩ (ih items)

/-- Records whose fields are alike one by one are alike. -/
theorem record_alike (h : List.Forall₂ (Field.Alike T) xs ys) {defaults : σ} {defaults' : τ}
    (hdefaults : T defaults defaults') (v : Value) :
    Option.Rel T (Toml.record xs defaults v) (Toml.record ys defaults' v) := by
  cases v with
  | table members => exact putAll_alike (forall₂_filterMap h members) hdefaults
  | list items => exact putAll_alike (forall₂_zip h items) hdefaults
  | datetime s => exact .some hdefaults
  | text s => exact .none
  | int n => exact .none
  | float x => exact .none
  | bool b => exact .none

theorem items_alike {α β : Type} {R : α → β → Prop} {decode : Value → Option α}
    {decode' : Value → Option β} (h : ∀ v, Option.Rel R (decode v) (decode' v)) (v : Value) :
    Option.Rel (List.Forall₂ R) (items decode v) (items decode' v) := by
  cases v with
  | list values =>
      change Option.Rel _ (values.mapM decode) (values.mapM decode')
      induction values with
      | nil => exact .some .nil
      | cons v rest ih =>
          have hv := h v
          rw [List.mapM_cons, List.mapM_cons]
          generalize decode v = a at hv ⊢
          generalize decode' v = b at hv ⊢
          generalize rest.mapM decode = as at ih ⊢
          generalize rest.mapM decode' = bs at ih ⊢
          cases hv with
          | none => exact .none
          | some hab =>
              cases ih with
              | none => exact .none
              | some hrest => exact .some (.cons hab hrest)
  | _ => exact .none

end Localnet.Toml
