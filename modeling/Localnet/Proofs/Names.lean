import Localnet.Names
import Mathlib.Data.List.Nodup
import Mathlib.Data.List.Perm.Subperm
import Mathlib.Order.Bounds.Basic

/-!
# Names that are resolved at once, and one by one

Resolving the names of a list is resolving them in two parts, the second part numbered from where the
first one ended; and a generated name that is free is the one that is picked. The search for a free one
needs no bound: among as many numbers as names are taken, and one more, there is one whose name is free.
-/

namespace Localnet.Names

theorem ensureUniqueAfter_eq_ok_iff (seen names : List String) :
    ensureUniqueAfter seen names = .ok () ↔ names.Nodup ∧ ∀ name ∈ names, name ∉ seen := by
  induction names generalizing seen with
  | nil => simp [ensureUniqueAfter]
  | cons name rest ih =>
      by_cases hseen : name ∈ seen
      · simp [ensureUniqueAfter, hseen]
      · simp only [ensureUniqueAfter, if_neg hseen, ih, List.nodup_cons, List.mem_cons, not_or,
          forall_eq_or_imp]
        constructor
        · rintro ⟨hnodup, hrest⟩
          exact ⟨⟨fun hmem => (hrest name hmem).1 rfl, hnodup⟩, hseen,
            fun other hother => (hrest other hother).2⟩
        · rintro ⟨⟨hnot, hnodup⟩, -, hrest⟩
          exact ⟨hnodup, fun other hother => ⟨fun heq => hnot (heq ▸ hother), hrest other hother⟩⟩

theorem ensureUnique_eq_ok_iff (names : List String) : ensureUnique names = .ok () ↔ names.Nodup := by
  simp [ensureUnique, ensureUniqueAfter_eq_ok_iff]

@[simp] theorem length_resolve (nodes : List NodeConfig) :
    (resolve nodes).length = nodes.length :=
  length_resolveFrom 0 nodes

theorem generatedCount_cons (node : NodeConfig) (rest : List NodeConfig) :
    generatedCount (node :: rest) = generatedCount rest + if node.name = "" then 1 else 0 := by
  by_cases hname : node.name = "" <;> simp [generatedCount, hname]

/-- The names of two lists together are those of the first one, and those of the second one with
numbers from where the first one ended. -/
theorem resolveFrom_append (next : Nat) (first second : List NodeConfig) :
    resolveFrom next (first ++ second) =
      resolveFrom next first ++ resolveFrom (next + generatedCount first) second := by
  induction first generalizing next with
  | nil => rfl
  | cons node rest ih =>
      rw [List.cons_append, resolveFrom, resolveFrom, generatedCount_cons]
      by_cases hname : node.name = ""
      · rw [if_pos hname, if_pos hname, if_pos hname, ih, List.cons_append, Nat.add_assoc,
          Nat.add_comm 1]
      · rw [if_neg hname, if_neg hname, if_neg hname, ih, List.cons_append, Nat.add_zero]

theorem generatedCount_append (first second : List NodeConfig) :
    generatedCount (first ++ second) = generatedCount first + generatedCount second := by
  rw [generatedCount, List.filter_append, List.length_append]
  rfl

/-- The names of all nodes are those that some have, and as many generated ones as there are others. -/
theorem resolveFrom_perm (next : Nat) (nodes : List NodeConfig) :
    (resolveFrom next nodes).Perm ((nodes.map (·.name)).filter (· ≠ "") ++
      (List.range' next (generatedCount nodes)).map generated) := by
  induction nodes generalizing next with
  | nil => exact .nil
  | cons node rest ih =>
      rw [resolveFrom, generatedCount_cons, List.map_cons, List.filter_cons]
      by_cases hname : node.name = ""
      · rw [if_pos hname, if_pos hname, if_neg (by simpa using hname), List.range'_succ, List.map_cons]
        exact ((ih (next + 1)).cons _).trans List.perm_middle.symm
      · rw [if_neg hname, if_neg hname, if_pos (by simpa using hname), Nat.add_zero]
        exact (ih next).cons _

theorem generatedCount_perm {nodes nodes' : List NodeConfig} (h : nodes.Perm nodes') :
    generatedCount nodes = generatedCount nodes' :=
  (h.filter _).length_eq

/-- In another order the generated names fall to other nodes, but they are the same. -/
theorem resolve_perm {nodes nodes' : List NodeConfig} (h : nodes.Perm nodes') :
    (resolve nodes).Perm (resolve nodes') :=
  calc (resolve nodes).Perm _ := resolveFrom_perm 0 nodes
    List.Perm _ ((nodes'.map (·.name)).filter (· ≠ "") ++
        (List.range' 0 (generatedCount nodes')).map generated) := by
      rw [generatedCount_perm h]
      exact ((h.map _).filter _).append_right _
    List.Perm _ (resolve nodes') := (resolveFrom_perm 0 nodes').symm

/-- A node that has a name keeps it, wherever it stands. -/
theorem mem_zip_resolveFrom {α : Type} {next : Nat} {nodes : List NodeConfig} {entries : List α}
    {node : NodeConfig} {entry : α} (h : (node, entry) ∈ nodes.zip entries) (hname : node.name ≠ "") :
    (node.name, entry) ∈ (resolveFrom next nodes).zip entries := by
  induction nodes generalizing next entries with
  | nil => cases h
  | cons first rest ih =>
      cases entries with
      | nil => cases h
      | cons _ others =>
          rw [resolveFrom]
          rcases List.mem_cons.mp h with heq | h
          · cases heq
            rw [if_neg hname]
            exact List.mem_cons_self
          · split
            · exact List.mem_cons_of_mem _ (ih h)
            · exact List.mem_cons_of_mem _ (ih h)

/-- The names that the nodes without one get, in order. -/
def given (nodes : List NodeConfig) : List String :=
  ((nodes.zip (resolve nodes)).filter (·.1.name = "")).map (·.2)

theorem given_eq (nodes : List NodeConfig) :
    given nodes = (List.range (generatedCount nodes)).map generated := by
  suffices hfrom : ∀ next, ((nodes.zip (resolveFrom next nodes)).filter (·.1.name = "")).map (·.2) =
      (List.range' next (generatedCount nodes)).map generated by
    rw [List.range_eq_range']
    exact hfrom 0
  induction nodes with
  | nil => exact fun _ => rfl
  | cons node rest ih =>
      intro next
      rw [resolveFrom, generatedCount_cons]
      by_cases hname : node.name = ""
      · rw [if_pos hname, if_pos hname, List.zip_cons_cons, List.filter_cons_of_pos (by simpa using hname),
          List.map_cons, ih, List.range'_succ, List.map_cons]
      · rw [if_neg hname, if_neg hname, List.zip_cons_cons, List.filter_cons_of_neg (by simpa using hname),
          ih, Nat.add_zero]

/-- A name that is not generated is the one that its node has. -/
theorem mem_resolveFrom {next : Nat} {nodes : List NodeConfig} {name : String}
    (h : name ∈ resolveFrom next nodes) :
    (∃ n, name = generated n) ∨ ∃ node ∈ nodes, node.name ≠ "" ∧ name = node.name := by
  induction nodes generalizing next with
  | nil => cases h
  | cons node rest ih =>
      unfold resolveFrom at h
      split at h
      next hempty =>
        rcases List.mem_cons.mp h with rfl | h
        · exact .inl ⟨next, rfl⟩
        · refine (ih h).imp_right ?_
          rintro ⟨other, hother, hname⟩
          exact ⟨other, List.mem_cons_of_mem node hother, hname⟩
      next hname =>
        rcases List.mem_cons.mp h with rfl | h
        · exact .inr ⟨node, List.mem_cons_self, hname, rfl⟩
        · refine (ih h).imp_right ?_
          rintro ⟨other, hother, hname⟩
          exact ⟨other, List.mem_cons_of_mem node hother, hname⟩

/-- A generated name that is free is the one that is picked. -/
theorem nextFree_of_free {next : Nat} {taken : List String} (h : generated next ∉ taken) :
    nextFree next taken = (generated next, next + 1) := by
  have hfirst : firstFree (taken.contains ·) next taken.length = next := by
    cases htries : taken.length with
    | zero => rfl
    | succ tries =>
        rw [firstFree, if_neg]
        simpa using h
  rw [nextFree, hfirst]

theorem le_firstFree (taken : String → Bool) (next tries : Nat) :
    next ≤ firstFree taken next tries := by
  induction tries generalizing next with
  | zero => exact Nat.le_refl next
  | succ tries ih =>
      unfold firstFree
      split
      · exact Nat.le_trans (Nat.le_succ next) (ih (next + 1))
      · exact Nat.le_refl next

theorem lt_nextFree (next : Nat) (taken : List String) : next < (nextFree next taken).2 :=
  Nat.lt_succ_of_le (le_firstFree _ _ _)

/-! ### The search for a free name -/

theorem generated_injective : Function.Injective generated := by
  intro m n h
  have hlists : "node-".toList ++ Nat.toDigits 10 m = "node-".toList ++ Nat.toDigits 10 n := by
    rw [← Nat.toList_repr, ← Nat.toList_repr, ← String.toList_append, ← String.toList_append]
    exact congrArg String.toList h
  calc m = Nat.ofDigitChars 10 (Nat.toDigits 10 m) 0 := Nat.ofDigitChars_ten_toDigits.symm
    _ = Nat.ofDigitChars 10 (Nat.toDigits 10 n) 0 := by rw [List.append_cancel_left hlists]
    _ = n := Nat.ofDigitChars_ten_toDigits

/-- The tries of a search from a number on: the names that are taken, and the first one that is not. -/
inductive Search (taken : List String) : (next n tries : Nat) → Prop
  | free {next : Nat} : generated next ∉ taken → Search taken next next 1
  | taken {next n tries : Nat} : generated next ∈ taken → Search taken (next + 1) n tries →
      Search taken next n (tries + 1)

variable {taken : List String} {next n tries : Nat}

theorem Search.isLeast (h : Search taken next n tries) :
    IsLeast {m | next ≤ m ∧ generated m ∉ taken} n := by
  induction h with
  | free hfree => exact ⟨⟨Nat.le_refl _, hfree⟩, fun m hm => hm.1⟩
  | @taken next n tries htaken _ ih =>
      obtain ⟨⟨hle, hfree⟩, hleast⟩ := ih
      refine ⟨⟨Nat.le_of_succ_le hle, hfree⟩, fun m ⟨hm, hmfree⟩ => hleast ⟨?_, hmfree⟩⟩
      have hne : m ≠ next := by
        rintro rfl
        exact hmfree htaken
      omega

/-- There are more numbers than names that are taken. -/
theorem exists_free (next : Nat) (taken : List String) :
    ∃ k ≤ taken.length, generated (next + k) ∉ taken := by
  by_contra! hall
  have hnodup : ((List.range (taken.length + 1)).map fun k => generated (next + k)).Nodup :=
    List.nodup_range.map fun k l h => Nat.add_left_cancel (generated_injective h)
  have hsub : ((List.range (taken.length + 1)).map fun k => generated (next + k)) ⊆ taken := by
    intro name hname
    obtain ⟨k, hk, rfl⟩ := List.mem_map.mp hname
    exact hall k (Nat.le_of_lt_succ (List.mem_range.mp hk))
  have hlength := (hnodup.subperm hsub).length_le
  rw [List.length_map, List.length_range] at hlength
  omega

theorem search_firstFree {limit k : Nat} (hk : k ≤ limit) (hfree : generated (next + k) ∉ taken) :
    ∃ tries ≤ limit + 1, Search taken next (firstFree (taken.contains ·) next limit) tries := by
  induction limit generalizing next k with
  | zero =>
      obtain rfl := Nat.le_zero.mp hk
      exact ⟨1, Nat.le_refl 1, .free hfree⟩
  | succ limit ih =>
      unfold firstFree
      by_cases htaken : generated next ∈ taken
      · cases k with
        | zero => exact absurd htaken hfree
        | succ k =>
            rw [Nat.add_comm k, ← Nat.add_assoc] at hfree
            obtain ⟨tries, hle, hsearch⟩ := ih (Nat.le_of_succ_le_succ hk) hfree
            rw [if_pos (List.contains_iff_mem.mpr htaken)]
            exact ⟨tries + 1, Nat.succ_le_succ hle, .taken htaken hsearch⟩
      · rw [if_neg (by simpa using htaken)]
        exact ⟨1, Nat.succ_le_succ (Nat.zero_le _), .free htaken⟩

/-- The bound on the tries leaves nothing out: the search ends within it. -/
theorem search_nextFree (next : Nat) (taken : List String) :
    ∃ n, nextFree next taken = (generated n, n + 1) ∧
      ∃ tries ≤ taken.length + 1, Search taken next n tries := by
  obtain ⟨k, hk, hfree⟩ := exists_free next taken
  exact ⟨_, rfl, search_firstFree hk hfree⟩

end Localnet.Names
