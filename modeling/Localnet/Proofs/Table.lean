import Localnet.Table
import Mathlib.Data.List.Nodup
import Mathlib.Data.List.Perm.Basic

/-!
# Tables by their entries

A table has one entry for each of its names, so that what an operation makes of the look-ups it also
makes of the entries, up to their order.
-/

namespace Localnet

namespace Members

variable {α : Type} {name : String} {value : α} {entries : List (String × α)}

theorem find?_eq_none_iff : find? name entries = none ↔ name ∉ entries.map (·.1) := by
  induction entries with
  | nil => simp [find?]
  | cons entry rest ih =>
      obtain ⟨key, old⟩ := entry
      by_cases h : key = name
      · simp [find?, h]
      · simp [find?, h, ih, Ne.symm h]

theorem mem_of_find?_eq_some (h : find? name entries = some value) : (name, value) ∈ entries := by
  induction entries with
  | nil => simp [find?] at h
  | cons entry rest ih =>
      obtain ⟨key, old⟩ := entry
      by_cases hkey : key = name
      · obtain rfl : old = value := by simpa [find?, hkey] using h
        simp [hkey]
      · exact List.mem_cons_of_mem _ (ih (by simpa [find?, hkey] using h))

theorem find?_eq_some_of_mem (hnodup : (entries.map (·.1)).Nodup) (h : (name, value) ∈ entries) :
    find? name entries = some value := by
  induction entries with
  | nil => simp at h
  | cons entry rest ih =>
      obtain ⟨key, old⟩ := entry
      obtain ⟨hnot, hnodup⟩ := List.nodup_cons.mp hnodup
      rcases List.mem_cons.mp h with heq | hrest
      · cases heq
        simp [find?]
      · have hne : key ≠ name := by
          rintro rfl
          exact hnot (List.mem_map.mpr ⟨_, hrest, rfl⟩)
        simpa [find?, hne] using ih hnodup hrest

theorem Ordered.nodup_names (h : Ordered entries) : (entries.map (·.1)).Nodup := by
  rw [List.Nodup, List.pairwise_map]
  refine h.imp fun {a b} hlt heq => ?_
  rw [heq] at hlt
  exact String.lt_irrefl _ hlt

theorem insert_perm (h : name ∉ entries.map (·.1)) :
    (insert name value entries).Perm ((name, value) :: entries) := by
  induction entries with
  | nil => exact .refl _
  | cons entry rest ih =>
      obtain ⟨key, old⟩ := entry
      simp only [List.map_cons, List.mem_cons, not_or] at h
      simp only [insert, if_neg (Ne.symm h.1)]
      split
      · exact .refl _
      · exact ((ih h.2).cons _).trans (.swap _ _ _)

theorem erase_eq_self (h : name ∉ entries.map (·.1)) : erase name entries = entries := by
  refine List.filter_eq_self.mpr fun entry hentry => ?_
  have hname : entry.1 ≠ name := by
    rintro rfl
    exact h (List.mem_map_of_mem hentry)
  simpa using hname

theorem perm_erase (hnodup : (entries.map (·.1)).Nodup) (h : (name, value) ∈ entries) :
    entries.Perm ((name, value) :: erase name entries) := by
  induction entries with
  | nil => simp at h
  | cons entry rest ih =>
      obtain ⟨hnot, hnodup⟩ := List.nodup_cons.mp hnodup
      rcases List.mem_cons.mp h with rfl | hrest
      · have herase : erase name ((name, value) :: rest) = erase name rest := by simp [erase]
        rw [herase, erase_eq_self hnot]
      · have hne : entry.1 ≠ name := by
          rintro rfl
          exact hnot (List.mem_map.mpr ⟨_, hrest, rfl⟩)
        have herase : erase name (entry :: rest) = entry :: erase name rest := by
          simp [erase, hne]
        rw [herase]
        exact ((ih hnodup hrest).cons entry).trans (.swap _ _ _)

theorem insert_of_lt (h : ∀ entry ∈ entries, entry.1 < name) :
    insert name value entries = entries ++ [(name, value)] := by
  induction entries with
  | nil => rfl
  | cons entry rest ih =>
      obtain ⟨hlt, hrest⟩ := List.forall_mem_cons.mp h
      have hnot : ¬ name < entry.1 := fun h => String.lt_irrefl _ (String.lt_trans hlt h)
      have hne : entry.1 ≠ name := fun heq => String.lt_irrefl _ (heq ▸ hlt)
      rw [insert, if_neg hnot, if_neg hne, ih hrest, List.cons_append]

/-- Entries in order stay as they are. -/
theorem ofList_of_ordered (h : Ordered entries) : ofList entries = entries := by
  have hfold : ∀ rest acc : List (String × α), Ordered (acc ++ rest) →
      rest.foldl (fun acc entry => insert entry.1 entry.2 acc) acc = acc ++ rest := by
    intro rest
    induction rest with
    | nil =>
        intro acc _
        exact (List.append_nil acc).symm
    | cons entry rest ih =>
        intro acc hacc
        have hlt : ∀ other ∈ acc, other.1 < entry.1 := fun other hother =>
          (List.pairwise_append.mp hacc).2.2 other hother entry List.mem_cons_self
        have hsplit : acc ++ [entry] ++ rest = acc ++ entry :: rest := by
          rw [List.append_assoc, List.singleton_append]
        rw [List.foldl_cons, insert_of_lt hlt, ih _ (hsplit ▸ hacc), hsplit]
  exact hfold entries [] h

/-! ### Other values under the same names -/

variable {β : Type} (f : α → β)

def mapValues (entries : List (String × α)) : List (String × β) :=
  entries.map fun entry => (entry.1, f entry.2)

theorem mapValues_cons (entry : String × α) (rest : List (String × α)) :
    mapValues f (entry :: rest) = (entry.1, f entry.2) :: mapValues f rest := rfl

theorem find?_mapValues (name : String) (entries : List (String × α)) :
    find? name (mapValues f entries) = (find? name entries).map f := by
  induction entries with
  | nil => rfl
  | cons entry rest ih =>
      rw [mapValues_cons, find?, find?, ih]
      split <;> rfl

theorem Ordered.mapValues (h : Ordered entries) : Ordered (mapValues f entries) := List.pairwise_map.mpr h

theorem insert_mapValues (name : String) (value : α) (entries : List (String × α)) :
    insert name (f value) (mapValues f entries) = mapValues f (insert name value entries) := by
  induction entries with
  | nil => rfl
  | cons entry rest ih =>
      rw [mapValues_cons, insert, insert, ih]
      split
      · rfl
      · split <;> rfl

theorem ofList_mapValues (entries : List (String × α)) :
    ofList (mapValues f entries) = mapValues f (ofList entries) := by
  have hfold : ∀ acc : List (String × α),
      (mapValues f entries).foldl (fun acc entry => insert entry.1 entry.2 acc) (mapValues f acc) =
        mapValues f (entries.foldl (fun acc entry => insert entry.1 entry.2 acc) acc) := by
    induction entries with
    | nil => exact fun _ => rfl
    | cons entry rest ih =>
        intro acc
        have hinsert := insert_mapValues f entry.1 entry.2 acc
        rw [mapValues_cons, List.foldl_cons, List.foldl_cons, hinsert, ih]
  exact hfold []

end Members

namespace Table

variable {α : Type} {t : Table α} {name : String} {value : α}

theorem contains_eq_false_iff : t.contains name = false ↔ name ∉ t.names := by
  rw [contains, Option.isSome_eq_false_iff, Option.isNone_iff_eq_none]
  exact Members.find?_eq_none_iff

theorem contains_iff : t.contains name ↔ name ∈ t.names := by
  rw [← not_iff_not, Bool.not_eq_true, contains_eq_false_iff]

theorem nodup_names (t : Table α) : t.names.Nodup := t.ordered.nodup_names

theorem entries_insert_perm (h : name ∉ t.names) :
    (t.insert name value).entries.Perm ((name, value) :: t.entries) :=
  Members.insert_perm h

theorem values_insert_perm (h : name ∉ t.names) :
    (t.insert name value).values.Perm (value :: t.values) :=
  (entries_insert_perm h).map _

/-- What is put last under a name counts, and before that what was there. -/
theorem get?_foldl_insert {entries : List (String × α)} (hnodup : (entries.map (·.1)).Nodup)
    (t : Table α) (name : String) :
    (entries.foldl (fun acc entry => acc.insert entry.1 entry.2) t).get? name =
      (Members.find? name entries).or (t.get? name) := by
  induction entries generalizing t with
  | nil => rfl
  | cons entry rest ih =>
      obtain ⟨key, value⟩ := entry
      obtain ⟨hnot, hrest⟩ := List.nodup_cons.mp hnodup
      rw [List.foldl_cons, ih hrest, get?_insert, Members.find?]
      by_cases hkey : key = name
      · rw [← hkey, Members.find?_eq_none_iff.mpr hnot]
        simp
      · rw [if_neg hkey, if_neg hkey]

theorem get?_merge (t u : Table α) (name : String) :
    (t.merge u).get? name = (u.get? name).or (t.get? name) :=
  get?_foldl_insert u.nodup_names t name

theorem get?_insertIfNew (t : Table α) (name other : String) (value : α) :
    (t.insertIfNew name value).get? other =
      (t.get? other).or (if other = name then some value else none) := by
  unfold insertIfNew contains
  by_cases htaken : (t.get? name).isSome
  · rw [if_pos htaken]
    by_cases heq : other = name
    · obtain ⟨old, hold⟩ := Option.isSome_iff_exists.mp htaken
      rw [heq, hold]
      rfl
    · rw [if_neg heq, Option.or_none]
  · rw [if_neg htaken, get?_insert]
    by_cases heq : name = other
    · rw [if_pos heq, if_pos heq.symm, ← heq, Option.not_isSome_iff_eq_none.mp htaken]
      rfl
    · rw [if_neg heq, if_neg (Ne.symm heq), Option.or_none]

theorem mem_of_get?_eq_some (h : t.get? name = some value) : (name, value) ∈ t.entries :=
  Members.mem_of_find?_eq_some h

theorem get?_eq_some_of_mem (h : (name, value) ∈ t.entries) : t.get? name = some value :=
  Members.find?_eq_some_of_mem t.nodup_names h

theorem get?_eq_none_of_not_mem (h : name ∉ t.names) : t.get? name = none :=
  Members.find?_eq_none_iff.mpr h

theorem entries_erase_perm (h : t.get? name = some value) :
    t.entries.Perm ((name, value) :: (t.erase name).entries) :=
  Members.perm_erase t.nodup_names (mem_of_get?_eq_some h)

theorem values_erase_perm (h : t.get? name = some value) :
    t.values.Perm (value :: (t.erase name).values) :=
  (entries_erase_perm h).map _

/-- Tables that agree on the names of some kind have the same entries under them. -/
theorem filter_entries_congr {t u : Table α} {p : String → Bool}
    (h : ∀ name, p name → t.get? name = u.get? name) :
    t.entries.filter (p ·.1) = u.entries.filter (p ·.1) := by
  have hmem : ∀ {t u : Table α}, (∀ name, p name → t.get? name = u.get? name) →
      ∀ entry ∈ t.entries.filter (p ·.1), entry ∈ u.entries.filter (p ·.1) := by
    intro t u h entry hentry
    obtain ⟨hentry, hname⟩ := List.mem_filter.mp hentry
    have hget : t.get? entry.1 = some entry.2 := get?_eq_some_of_mem hentry
    rw [h entry.1 hname] at hget
    exact List.mem_filter.mpr ⟨mem_of_get?_eq_some hget, hname⟩
  have hordered : ∀ t : Table α, (t.entries.filter (p ·.1)).Pairwise fun a b => a.1 < b.1 :=
    fun t => List.Pairwise.filter _ t.ordered
  have hnodup : ∀ t : Table α, (t.entries.filter (p ·.1)).Nodup := fun t =>
    .of_map _ (Members.Ordered.nodup_names (hordered t))
  refine ((List.perm_ext_iff_of_nodup (hnodup t) (hnodup u)).mpr fun entry =>
    ⟨hmem h entry, hmem (fun name hname => (h name hname).symm) entry⟩).eq_of_pairwise ?_
      (hordered t) (hordered u)
  intro a b _ _ hab hba
  exact absurd (String.lt_trans hab hba) (String.lt_irrefl _)

section

variable {β γ : Type}

def mapValues (f : α → β) (t : Table α) : Table β :=
  ⟨Members.mapValues f t.entries, t.ordered.mapValues f⟩

theorem get?_mapValues (f : α → β) (t : Table α) (name : String) :
    (t.mapValues f).get? name = (t.get? name).map f :=
  Members.find?_mapValues f name t.entries

theorem ofList_mapValues (f : α → β) (entries : List (String × α)) :
    ofList (Members.mapValues f entries) = (ofList entries).mapValues f :=
  ext (Members.ofList_mapValues f entries)

theorem mapValues_mapValues (f : α → β) (g : β → γ) (t : Table α) :
    (t.mapValues f).mapValues g = t.mapValues (g ∘ f) :=
  ext (List.map_map ..)

theorem mapValues_id (t : Table α) : t.mapValues id = t := ext (List.map_id _)

end

end Table

end Localnet
