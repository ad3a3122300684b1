import Localnet.Names
import Localnet.Path
import Mathlib.Data.String.Basic

/-!
# Paths by their names

A path that is joined to another one has the names of both, unless it is absolute. Names are separate if
each leads down to a place of its own, and plain names are.
-/

namespace Localnet

namespace Path

theorem parts_ne_nil (text : List Char) : parts text ≠ [] := by
  induction text with
  | nil => exact List.cons_ne_nil _ _
  | cons c rest ih =>
      rw [parts]
      split
      · split <;> exact List.cons_ne_nil _ _
      · exact List.cons_ne_nil _ _

theorem parts_append (base rest : List Char) :
    parts (base ++ '/' :: rest) = parts base ++ parts rest := by
  induction base with
  | nil =>
      cases hrest : parts rest with
      | nil => exact absurd hrest (parts_ne_nil rest)
      | cons first others => simp [parts, hrest]
  | cons c base ih =>
      cases hbase : parts base with
      | nil => exact absurd hbase (parts_ne_nil base)
      | cons first others =>
          rw [hbase] at ih
          rw [List.cons_append, parts, ih, parts, hbase]
          by_cases hc : c = '/' <;> simp [hc]

theorem parts_of_not_mem {text : List Char} (h : '/' ∉ text) : parts text = [text] := by
  induction text with
  | nil => rfl
  | cons c rest ih =>
      simp only [List.mem_cons, not_or] at h
      rw [parts, ih h.2]
      simp [Ne.symm h.1]

/-- A slash between two paths is the only thing that keeps their names apart. -/
theorem components_append (base path : String) :
    components (base ++ "/" ++ path) = components base ++ components path := by
  have htext : (base ++ "/" ++ path).toList = base.toList ++ '/' :: path.toList := by simp
  rw [components, htext, parts_append, List.filter_append, List.map_append]
  rfl

theorem components_join {base path : String} (h : isAbsolute path = false) :
    components (join base path) = components base ++ components path := by
  unfold join
  rw [h, if_neg Bool.false_ne_true]
  by_cases hempty : base = ""
  · rw [if_pos (.inl hempty), hempty, String.empty_append]
    rfl
  · by_cases hslash : base.toList.getLast? = some '/'
    · -- the base is some path and a slash, and that path has the same names
      obtain ⟨front, hfront⟩ := List.getLast?_eq_some_iff.mp hslash
      have hbase : base = String.ofList front ++ "/" ++ "" := by
        apply String.toList_injective
        simpa using hfront
      rw [if_pos (.inr hslash), hbase, components_append, String.append_empty, components_append]
      simp [components, parts]
    · rw [if_neg (not_or.mpr ⟨hempty, hslash⟩), components_append]

theorem isAbsolute_join {base path : String} (h : isAbsolute path = false) :
    isAbsolute (join base path) = isAbsolute base := by
  unfold join
  rw [h, if_neg Bool.false_ne_true]
  by_cases hempty : base = ""
  · rw [if_pos (.inl hempty), hempty, String.empty_append, h]
    rfl
  · have hhead : ∀ rest : String, isAbsolute (base ++ rest) = isAbsolute base := by
      intro rest
      unfold isAbsolute
      have hne : base.toList ≠ [] := by simpa using hempty
      rw [String.toList_append, List.head?_append_of_ne_nil _ hne]
    split
    · exact hhead path
    · rw [String.append_assoc]
      exact hhead _

theorem components_of_not_mem {name : String} (hslash : '/' ∉ name.toList) (hempty : name ≠ "")
    (hpoint : name ≠ ".") : components name = [name] := by
  have hnil : name.toList ≠ [] := by simpa using hempty
  have hdot : name.toList ≠ ['.'] := by
    intro heq
    apply hpoint
    apply String.toList_injective
    exact heq
  rw [components, parts_of_not_mem hslash]
  simp [hnil, hdot]

/-- A path leads from a directory down through some names. -/
structure Below (root path : String) (names : List String) : Prop where
  components : components path = components root ++ names
  isAbsolute : isAbsolute path = isAbsolute root
  ne_nil : names ≠ []
  downward : ".." ∉ names

end Path

namespace Names

/-- Names that lead down from any directory, each to a place of its own. Those that are chosen for nodes
without a name are among them. -/
structure Separate (allowed : String → Prop) : Prop where
  generated : ∀ n, allowed (generated n)
  relative : ∀ {name}, allowed name → Path.isAbsolute name = false
  downward : ∀ {name}, allowed name → ".." ∉ Path.components name
  eq_of_components_eq : ∀ {name other}, allowed name → allowed other →
    Path.components name = Path.components other → name = other

/-- A name is plain if it is a path that leads down, written in the one way without detours. -/
structure Plain (name : String) : Prop where
  relative : Path.isAbsolute name = false
  canonical : "/".intercalate (Path.components name) = name
  downward : ".." ∉ Path.components name

instance (name : String) : Decidable (Plain name) :=
  decidable_of_iff (Path.isAbsolute name = false ∧ "/".intercalate (Path.components name) = name ∧
      ".." ∉ Path.components name)
    ⟨fun ⟨h₁, h₂, h₃⟩ => ⟨h₁, h₂, h₃⟩, fun ⟨h₁, h₂, h₃⟩ => ⟨h₁, h₂, h₃⟩⟩

theorem plain_of_not_mem {name : String} (hslash : '/' ∉ name.toList) (hempty : name ≠ "")
    (hpoint : name ≠ ".") (hpoints : name ≠ "..") : Plain name := by
  have hcomponents := Path.components_of_not_mem hslash hempty hpoint
  refine ⟨?_, ?_, ?_⟩
  · unfold Path.isAbsolute
    cases htext : name.toList with
    | nil => rfl
    | cons c rest =>
        have hc : c ≠ '/' := by
          rintro rfl
          exact hslash (htext ▸ List.mem_cons_self)
        simpa using hc
  · rw [hcomponents]
    rfl
  · rw [hcomponents, List.mem_singleton]
    exact hpoints.symm

theorem plain_generated (n : Nat) : Plain (generated n) := by
  have htext : (generated n).toList = "node-".toList ++ Nat.toDigits 10 n := by
    change ("node-" ++ n.repr).toList = _
    rw [String.toList_append, Nat.toList_repr]
  have hne : ∀ other : String, other.toList.head? ≠ some 'n' → generated n ≠ other := by
    rintro other hother rfl
    rw [htext] at hother
    exact hother rfl
  refine plain_of_not_mem ?_ (hne _ (by decide)) (hne _ (by decide)) (hne _ (by decide))
  rw [htext, List.mem_append]
  rintro (hmem | hmem)
  · exact absurd hmem (by decide)
  · exact absurd (Nat.isDigit_of_mem_toDigits (by decide) (by decide) hmem) (by decide)

theorem separate_plain : Separate Plain where
  generated := plain_generated
  relative h := h.relative
  downward h := h.downward
  eq_of_components_eq h h' heq := by rw [← h.canonical, ← h'.canonical, heq]

end Names

end Localnet
