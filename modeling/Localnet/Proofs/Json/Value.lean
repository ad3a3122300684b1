import Localnet.Json.Writer
import Mathlib.Data.List.Basic

/-!
# JSON values by their parts

What holds of a value and of everything inside it, how deep its brackets nest, and what is left of it if
one float is as good as another.
-/

namespace Localnet

instance Members.decidableOrdered {α : Type} (entries : List (String × α)) :
    Decidable (Members.Ordered entries) :=
  inferInstanceAs (Decidable (entries.Pairwise fun a b => a.1 < b.1))

namespace Json.Value

section

variable {motive : Value → Prop} (null : motive .null) (bool : ∀ b, motive (.bool b))
  (int : ∀ n, motive (.int n)) (float : ∀ x, motive (.float x)) (text : ∀ s, motive (.text s))
  (list : ∀ items, (∀ v ∈ items, motive v) → motive (.list items))
  (object : ∀ members, (∀ entry ∈ members, motive entry.2) → motive (.object members))

include null bool int float text list object

-- the list and the object are used in the other theorems of the block
set_option linter.unusedSectionVars false in
mutual

/-- What holds of a list or an object if it holds of all inside holds of every value. -/
theorem inductionOn : (v : Value) → motive v
  | .null => null
  | .bool b => bool b
  | .int n => int n
  | .float x => float x
  | .text s => text s
  | .list items => list items (inductionOnItems items)
  | .object members => object members (inductionOnMembers members)

theorem inductionOnItems : (items : List Value) → ∀ v ∈ items, motive v
  | [] => nofun
  | item :: rest => List.forall_mem_cons.mpr ⟨inductionOn item, inductionOnItems rest⟩

theorem inductionOnMembers :
    (members : List (String × Value)) → ∀ entry ∈ members, motive entry.2
  | [] => nofun
  | (_, value) :: rest => List.forall_mem_cons.mpr ⟨inductionOn value, inductionOnMembers rest⟩

end

end

mutual

/-- Whether something holds of a value and of all values inside it. -/
def all (p : Value → Bool) : Value → Bool
  | .list items => p (.list items) && allItems p items
  | .object members => p (.object members) && allMembers p members
  | v => p v

def allItems (p : Value → Bool) : List Value → Bool
  | [] => true
  | item :: rest => item.all p && allItems p rest

def allMembers (p : Value → Bool) : List (String × Value) → Bool
  | [] => true
  | (_, value) :: rest => value.all p && allMembers p rest

end

mutual

/-- How many brackets are open at once in the written form. -/
def depth : Value → Nat
  | .list items => itemsDepth items + 1
  | .object members => membersDepth members + 1
  | _ => 0

def itemsDepth : List Value → Nat
  | [] => 0
  | item :: rest => max item.depth (itemsDepth rest)

def membersDepth : List (String × Value) → Nat
  | [] => 0
  | (_, value) :: rest => max value.depth (membersDepth rest)

end

mutual

/-- The value with zero in place of every float. -/
def blur : Value → Value
  | .float _ => .float ⟨0⟩
  | .list items => .list (blurItems items)
  | .object members => .object (blurMembers members)
  | v => v

def blurItems : List Value → List Value
  | [] => []
  | item :: rest => item.blur :: blurItems rest

def blurMembers : List (String × Value) → List (String × Value)
  | [] => []
  | (name, value) :: rest => (name, value.blur) :: blurMembers rest

end

/-- No number in the value is a float. -/
def isFloatFree (v : Value) : Bool :=
  v.all fun
    | .float _ => false
    | _ => true

/-- Every object lists its members in order, and every float is a number. -/
def isRegular (v : Value) : Bool :=
  v.all fun
    | .float x => x.isFinite
    | .object members => decide (Members.Ordered members)
    | _ => true

variable {p : Value → Bool} {items : List Value} {members : List (String × Value)}

theorem allItems_iff : allItems p items ↔ ∀ v ∈ items, v.all p := by
  induction items with
  | nil => simp [allItems]
  | cons item rest ih => simp [allItems, ih]

theorem allMembers_iff : allMembers p members ↔ ∀ entry ∈ members, entry.2.all p := by
  induction members with
  | nil => simp [allMembers]
  | cons entry rest ih => simp [allMembers, ih]

theorem all_list : (Value.list items).all p ↔ p (.list items) ∧ ∀ v ∈ items, v.all p := by
  rw [all, Bool.and_eq_true, allItems_iff]

theorem all_object :
    (Value.object members).all p ↔ p (.object members) ∧ ∀ entry ∈ members, entry.2.all p := by
  rw [all, Bool.and_eq_true, allMembers_iff]

@[simp] theorem isFloatFree_list : (Value.list items).isFloatFree ↔ ∀ v ∈ items, v.isFloatFree :=
  all_list.trans (and_iff_right rfl)

@[simp] theorem isFloatFree_object :
    (Value.object members).isFloatFree ↔ ∀ entry ∈ members, entry.2.isFloatFree :=
  all_object.trans (and_iff_right rfl)

@[simp] theorem isRegular_list : (Value.list items).isRegular ↔ ∀ v ∈ items, v.isRegular :=
  all_list.trans (and_iff_right rfl)

@[simp] theorem isRegular_object :
    (Value.object members).isRegular ↔
      Members.Ordered members ∧ ∀ entry ∈ members, entry.2.isRegular :=
  all_object.trans (and_congr_left fun _ => decide_eq_true_iff)

theorem itemsDepth_le_iff {n : Nat} : itemsDepth items ≤ n ↔ ∀ v ∈ items, v.depth ≤ n := by
  induction items with
  | nil => simp [itemsDepth]
  | cons item rest ih => rw [itemsDepth, Nat.max_le, ih, List.forall_mem_cons]

theorem membersDepth_le_iff {n : Nat} :
    membersDepth members ≤ n ↔ ∀ entry ∈ members, entry.2.depth ≤ n := by
  induction members with
  | nil => simp [membersDepth]
  | cons entry rest ih => rw [membersDepth, Nat.max_le, ih, List.forall_mem_cons]

@[simp] theorem depth_list_le_iff {n : Nat} :
    (Value.list items).depth ≤ n + 1 ↔ ∀ v ∈ items, v.depth ≤ n := by
  rw [depth, Nat.add_le_add_iff_right, itemsDepth_le_iff]

@[simp] theorem depth_object_le_iff {n : Nat} :
    (Value.object members).depth ≤ n + 1 ↔ ∀ entry ∈ members, entry.2.depth ≤ n := by
  rw [depth, Nat.add_le_add_iff_right, membersDepth_le_iff]

@[simp] theorem blur_list : (Value.list items).blur = .list (items.map blur) := by
  have hitems : blurItems items = items.map blur := by
    induction items with
    | nil => rfl
    | cons item rest ih => rw [blurItems, ih, List.map_cons]
  rw [blur, hitems]

@[simp] theorem blur_object :
    (Value.object members).blur = .object (members.map fun entry => (entry.1, entry.2.blur)) := by
  have hmembers : blurMembers members = members.map fun entry => (entry.1, entry.2.blur) := by
    induction members with
    | nil => rfl
    | cons entry rest ih => rw [blurMembers, ih, List.map_cons]
  rw [blur, hmembers]

theorem isFloatFree_blur (v : Value) : v.blur.isFloatFree ↔ v.isFloatFree := by
  induction v using inductionOn with
  | null => rfl
  | bool b => rfl
  | int n => rfl
  | float x => rfl
  | text s => rfl
  | list items ih =>
      simp only [blur_list, isFloatFree_list, List.forall_mem_map]
      exact forall₂_congr ih
  | object members ih =>
      simp only [blur_object, isFloatFree_object, List.forall_mem_map]
      exact forall₂_congr ih

theorem blur_of_isFloatFree {v : Value} (h : v.isFloatFree) : v.blur = v := by
  induction v using inductionOn with
  | null => rfl
  | bool b => rfl
  | int n => rfl
  | float x => cases h
  | text s => rfl
  | list items ih =>
      have hitems : items.map blur = items :=
        (List.map_congr_left fun v hv => ih v hv (isFloatFree_list.mp h v hv)).trans (List.map_id _)
      rw [blur_list, hitems]
  | object members ih =>
      have hmembers : (members.map fun entry => (entry.1, entry.2.blur)) = members := by
        refine (List.map_congr_left fun entry hentry => ?_).trans (List.map_id _)
        rw [ih entry hentry (isFloatFree_object.mp h entry hentry)]
        rfl
      rw [blur_object, hmembers]

/-- The second value is the first one with other floats in it, if any. -/
def SameUpToFloats (v w : Value) : Prop := w.blur = v.blur

theorem SameUpToFloats.refl (v : Value) : SameUpToFloats v v := rfl

theorem SameUpToFloats.eq {v w : Value} (h : SameUpToFloats v w) (hv : v.isFloatFree) : w = v := by
  have hw : w.isFloatFree := by rw [← isFloatFree_blur, h, isFloatFree_blur, hv]
  rw [← blur_of_isFloatFree hw, h, blur_of_isFloatFree hv]

end Json.Value

end Localnet
