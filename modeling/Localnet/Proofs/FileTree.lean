import Localnet.FileTree
import Localnet.Proofs.Path
import Localnet.Proofs.Validation

/-!
# What writing and making directories leave alone

Directories stay directories. Making directories changes nothing that is there; writing changes what is
at one place, and a path that leads elsewhere is read as before.
-/

namespace Localnet.FileTree

open Validation (bind_eq_ok_iff)

/-- What is done unless something is wrong. -/
theorem unless_eq_ok_iff {ε α : Type} {wrong : Prop} [Decidable wrong] {e : ε} {x : Except ε α} {a : α} :
    (if wrong then (throw e : Except ε PUnit) >>= fun _ => x else x) = .ok a ↔ ¬ wrong ∧ x = .ok a := by
  by_cases h : wrong
  · simp [h, throw, throwThe, MonadExceptOf.throw, bind, Except.bind]
  · simp [h]

variable {t t' : FileTree} {workDir place next : Place} {path text : String} {names : List String}

theorem lookup_filter_of_ne {entries : List (Place × FileEntry)} {other : Place} (h : other ≠ place) :
    (entries.filter (·.1 ≠ place)).lookup other = entries.lookup other := by
  induction entries with
  | nil => rfl
  | cons entry rest ih =>
      obtain ⟨found, value⟩ := entry
      by_cases hfound : found = place
      · have hne : (other == found) = false := by simpa [hfound] using h
        rw [List.filter_cons_of_neg (by simp [hfound]), ih, List.lookup_cons, hne]
      · rw [List.filter_cons_of_pos (by simp [hfound]), List.lookup_cons, List.lookup_cons, ih]

theorem entry?_put_self (t : FileTree) (entry : FileEntry) (h : place ≠ []) :
    entry? (t.put place entry) place = some entry := by
  simp [ entry?, put, h]

theorem entry?_put_of_ne (t : FileTree) (entry : FileEntry) {other : Place} (h : other ≠ place) :
    entry? (t.put place entry) other = t.entry? other := by
  have hne : (other == place) = false := by simpa using h
  unfold entry? put
  rw [List.lookup_cons, hne, lookup_filter_of_ne h]

/-- What is a directory stays one. -/
def KeepsDirs (t t' : FileTree) : Prop :=
  ∀ place, t.entry? place = some .dir → t'.entry? place = some .dir

/-- Whatever is there stays as it is. -/
def Grows (t t' : FileTree) : Prop :=
  ∀ place entry, t.entry? place = some entry → t'.entry? place = some entry

theorem Grows.refl (t : FileTree) : t.Grows t := fun _ _ => id

theorem Grows.trans {t'' : FileTree} (h : t.Grows t') (h' : t'.Grows t'') : t.Grows t'' :=
  fun place entry hentry => h' place entry (h place entry hentry)

theorem Grows.keepsDirs (h : t.Grows t') : t.KeepsDirs t' := fun place => h place .dir

theorem grows_put (entry : FileEntry) (h : t.entry? place = none) : t.Grows (t.put place entry) := by
  intro other found hfound
  have hne : other ≠ place := by
    rintro rfl
    cases h.symm.trans hfound
  rwa [entry?_put_of_ne t entry hne]

theorem keepsDirs_put (text : String) (h : t.entry? place ≠ some .dir) :
    t.KeepsDirs (t.put place (.file text)) := by
  intro other hother
  have hne : other ≠ place := by
    rintro rfl
    exact h hother
  rwa [entry?_put_of_ne t _ hne]

/-! ### Walks -/

theorem child_eq_ok {name : String} (h : t.child place name = .ok next) :
    t.entry? place = some .dir ∧ (name ≠ ".." → next = place ++ [name]) := by
  unfold child at h
  cases hentry : t.entry? place with
  | none =>
      rw [hentry] at h
      cases h
  | some entry =>
      cases entry with
      | file _ =>
          rw [hentry] at h
          cases h
      | dir =>
          refine ⟨rfl, fun hname => ?_⟩
          rw [hentry] at h
          dsimp only at h
          rw [if_neg hname] at h
          split at h
          · cases h
          · exact (Except.ok.inj h).symm

/-- A step depends on nothing but that it starts in a directory. -/
theorem child_of_keepsDirs {name : String} (hkeeps : t.KeepsDirs t')
    (h : t.child place name = .ok next) : t'.child place name = .ok next := by
  have hdir := (child_eq_ok h).1
  unfold child at h ⊢
  rw [hdir] at h
  rwa [hkeeps place hdir]

theorem walk_cons_eq_ok {name : String} {last : Place} :
    t.walk place (name :: names) = .ok last ↔
      ∃ next, t.child place name = .ok next ∧ t.entry? next ≠ none ∧ t.walk next names = .ok last := by
  simp only [walk, bind_eq_ok_iff, unless_eq_ok_iff, Option.isNone_iff_eq_none]

theorem walk_append {first second : List String} {last : Place} :
    t.walk place (first ++ second) = .ok last ↔
      ∃ next, t.walk place first = .ok next ∧ t.walk next second = .ok last := by
  induction first generalizing place with
  | nil => simp [walk]
  | cons name rest ih =>
      simp only [List.cons_append, walk_cons_eq_ok, ih]
      constructor
      · rintro ⟨next, hchild, hsome, last', hrest, hlast⟩
        exact ⟨last', ⟨next, hchild, hsome, hrest⟩, hlast⟩
      · rintro ⟨last', ⟨next, hchild, hsome, hrest⟩, hlast⟩
        exact ⟨next, hchild, hsome, last', hrest, hlast⟩

/-- A walk without ways up leads down by its names. -/
theorem eq_append_of_walk (hnames : ".." ∉ names) (h : t.walk place names = .ok next) :
    next = place ++ names := by
  induction names generalizing place with
  | nil =>
      cases h
      exact (List.append_nil _).symm
  | cons name rest ih =>
      simp only [List.mem_cons, not_or] at hnames
      obtain ⟨first, hchild, -, hrest⟩ := walk_cons_eq_ok.mp h
      rw [ih hnames.2 hrest, (child_eq_ok hchild).2 (Ne.symm hnames.1), List.append_assoc]
      rfl

theorem walk_of_keepsDirs (hkeeps : t.KeepsDirs t') (h : t.walk place names = .ok next)
    (hnext : t'.entry? next ≠ none) : t'.walk place names = .ok next := by
  induction names generalizing place with
  | nil => exact h
  | cons name rest ih =>
      obtain ⟨first, hchild, -, hrest⟩ := walk_cons_eq_ok.mp h
      refine walk_cons_eq_ok.mpr ⟨first, child_of_keepsDirs hkeeps hchild, ?_, ih hrest⟩
      cases rest with
      | nil =>
          cases hrest
          exact hnext
      | cons second others =>
          -- the walk goes on from there, so it is a directory
          obtain ⟨_, hsecond, -⟩ := walk_cons_eq_ok.mp hrest
          rw [hkeeps first (child_eq_ok hsecond).1]
          exact Option.some_ne_none _

/-! ### Making directories -/

theorem grows_makeOne (h : t.makeOne place names = .ok t') : t.Grows t' := by
  cases names with
  | nil => cases h
  | cons name above =>
      simp only [makeOne, bind_eq_ok_iff, unless_eq_ok_iff, Option.not_isSome_iff_eq_none] at h
      obtain ⟨parent, -, next, -, hnone, hput⟩ := h
      cases hput
      exact grows_put .dir hnone

theorem grows_makeAll (t : FileTree) (place : Place) (names : List String) :
    t.Grows (t.makeAll place names).1 := by
  induction names generalizing t with
  | nil => exact .refl t
  | cons name above ih =>
      rw [makeAll]
      split
      next t' hone => exact grows_makeOne hone
      next hone =>
        have habove := ih t
        split
        next t' e hall =>
          rw [hall] at habove
          exact habove
        next t' hall =>
          rw [hall] at habove
          split
          next t'' hone' => exact habove.trans (grows_makeOne hone')
          next => exact habove
      next => exact .refl t

theorem grows_makeDirs (t : FileTree) (workDir : Place) (path : String) :
    t.Grows (t.makeDirs workDir path).1 := by
  unfold makeDirs
  split
  · exact .refl t
  · split
    · exact .refl t
    · exact t.grows_makeAll _ _

/-! ### Reading and writing -/

theorem read_eq_ok :
    t.read workDir path = .ok text ↔
      checked path = .ok () ∧ Path.namesDir path = false ∧ ∃ place,
        t.walk (origin workDir path) (Path.components path) = .ok place ∧
        t.entry? place = some (.file text) := by
  simp only [read, find, bind_eq_ok_iff, unless_eq_ok_iff]
  constructor
  · rintro ⟨place, ⟨_, hchecked, last, hwalk, hdir, hlast⟩, hentry⟩
    cases hlast
    split at hentry
    next found hfound =>
      cases hentry
      refine ⟨hchecked, ?_, _, hwalk, hfound⟩
      simpa [hfound] using hdir
    next => cases hentry
    next => cases hentry
  · rintro ⟨hchecked, hnames, place, hwalk, hentry⟩
    refine ⟨place, ⟨(), hchecked, place, hwalk, by simp [hnames], rfl⟩, ?_⟩
    rw [hentry]
    rfl

/-- What is written to a path stands at the place that its last name leads to, which is no directory. -/
theorem write_eq_ok (h : t.write workDir path text = .ok t') :
    checked path = .ok () ∧ Path.namesDir path = false ∧ ∃ above name parent place,
      Path.components path = above ++ [name] ∧ t.walk (origin workDir path) above = .ok parent ∧
      t.child parent name = .ok place ∧ t.entry? place ≠ some .dir ∧
      t' = t.put place (.file text) := by
  simp only [write, bind_eq_ok_iff, unless_eq_ok_iff] at h
  obtain ⟨_, hchecked, hnames, h⟩ := h
  refine ⟨hchecked, by simpa using hnames, ?_⟩
  split at h
  · cases h
  next name above hreverse =>
    simp only [bind_eq_ok_iff, unless_eq_ok_iff] at h
    obtain ⟨parent, hwalk, place, hchild, hentry, hput⟩ := h
    refine ⟨above.reverse, name, parent, place, ?_, hwalk, hchild, hentry, ?_⟩
    · simpa using congrArg List.reverse hreverse
    · exact (Except.ok.inj hput).symm

theorem ne_nil_of_ne_dir (h : t.entry? next ≠ some .dir) : next ≠ [] := by
  rintro rfl
  exact h rfl

theorem keepsDirs_write (h : t.write workDir path text = .ok t') : t.KeepsDirs t' := by
  obtain ⟨-, -, _, _, _, place, -, -, -, hentry, rfl⟩ := write_eq_ok h
  exact keepsDirs_put text hentry

/-- What was written is read. -/
theorem read_of_write (h : t.write workDir path text = .ok t') : t'.read workDir path = .ok text := by
  have hkeeps := keepsDirs_write h
  obtain ⟨hchecked, hnames, above, name, parent, place, hpath, hwalk, hchild, hentry, rfl⟩ := write_eq_ok h
  have hself := t.entry?_put_self (.file text) (ne_nil_of_ne_dir hentry)
  have hparent := hkeeps parent (child_eq_ok hchild).1
  refine read_eq_ok.mpr ⟨hchecked, hnames, place, ?_, hself⟩
  rw [hpath, walk_append]
  refine ⟨parent, walk_of_keepsDirs hkeeps hwalk (hparent ▸ Option.some_ne_none _), ?_⟩
  exact walk_cons_eq_ok.mpr
    ⟨place, child_of_keepsDirs hkeeps hchild, hself ▸ Option.some_ne_none _, rfl⟩

/-- A file is read as before if it stands where it stood and no directory is gone. -/
theorem read_of_keepsDirs (hkeeps : t.KeepsDirs t') (hread : t.read workDir path = .ok text)
    (hentry : ∀ place, t.walk (origin workDir path) (Path.components path) = .ok place →
      t.entry? place = some (.file text) → t'.entry? place = some (.file text)) :
    t'.read workDir path = .ok text := by
  obtain ⟨hchecked, hnames, place, hwalk, hfile⟩ := read_eq_ok.mp hread
  have hfile' := hentry place hwalk hfile
  exact read_eq_ok.mpr
    ⟨hchecked, hnames, place, walk_of_keepsDirs hkeeps hwalk (hfile' ▸ Option.some_ne_none _), hfile'⟩

theorem read_makeDirs (dir : String) (hread : t.read workDir path = .ok text) :
    (t.makeDirs workDir dir).1.read workDir path = .ok text :=
  have hgrows := t.grows_makeDirs workDir dir
  read_of_keepsDirs hgrows.keepsDirs hread fun place _ => hgrows place (.file text)

/-- Below one directory, a file is read as before when something is written to another. -/
theorem read_write_of_ne {root path' text' : String} {rest rest' : List String}
    (hpath : Path.Below root path rest) (hpath' : Path.Below root path' rest') (hne : rest ≠ rest')
    (hread : t.read workDir path = .ok text) (h : t.write workDir path' text' = .ok t') :
    t'.read workDir path = .ok text := by
  have horigin : origin workDir path = origin workDir path' := by
    rw [origin, origin, hpath.isAbsolute, hpath'.isAbsolute]
  refine read_of_keepsDirs (keepsDirs_write h) hread fun place hwalk hfile => ?_
  obtain ⟨-, -, above, name, parent, written, hcomponents, hparent, hchild, -, rfl⟩ := write_eq_ok h
  rw [t.entry?_put_of_ne]
  · exact hfile
  rintro rfl
  -- both lead on from where the root leads to
  rw [hpath.components, walk_append, horigin] at hwalk
  obtain ⟨first, hroot, hrest⟩ := hwalk
  obtain ⟨front, last, rfl⟩ := (List.eq_nil_or_concat' rest').resolve_left hpath'.ne_nil
  rw [hpath'.components, ← List.append_assoc] at hcomponents
  obtain ⟨rfl, hlast⟩ := List.append_inj' hcomponents.symm rfl
  cases hlast
  obtain ⟨first', hroot', hfront⟩ := walk_append.mp hparent
  cases hroot.symm.trans hroot'
  have hdownward := hpath'.downward
  simp only [List.mem_append, List.mem_singleton, not_or] at hdownward
  rw [eq_append_of_walk hdownward.1 hfront] at hchild
  have hplace := (child_eq_ok hchild).2 (Ne.symm hdownward.2)
  rw [eq_append_of_walk hpath.downward hrest, List.append_assoc] at hplace
  exact hne (List.append_cancel_left hplace)

end Localnet.FileTree
