/-!
Lists of named values in the order of their names, each name once. Putting a value under a name that
is there already replaces the old one.
-/

namespace Localnet.Members

variable {α : Type}

def find? (name : String) : List (String × α) → Option α
  | [] => none
  | (key, value) :: rest => if key = name then some value else find? name rest

def insert (name : String) (value : α) : List (String × α) → List (String × α)
  | [] => [(name, value)]
  | (key, old) :: rest =>
    if name < key then (name, value) :: (key, old) :: rest
    else if key = name then (name, value) :: rest
    else (key, old) :: insert name value rest

def erase (name : String) (entries : List (String × α)) : List (String × α) :=
  entries.filter fun entry => entry.1 ≠ name

/-- Strictly increasing names, in the order of their characters. -/
def Ordered (entries : List (String × α)) : Prop :=
  entries.Pairwise fun a b => a.1 < b.1

/-- Later pairs replace earlier ones of the same name. -/
def ofList (entries : List (String × α)) : List (String × α) :=
  entries.foldl (fun acc entry => insert entry.1 entry.2 acc) []

theorem mem_insert {name : String} {value : α} {entries : List (String × α)} {x : String × α}
    (h : x ∈ insert name value entries) : x = (name, value) ∨ x ∈ entries := by
  induction entries with
  | nil => simpa [insert] using h
  | cons entry rest ih =>
    simp only [insert] at h
    split at h
    · simpa using h
    · split at h
      · rcases List.mem_cons.1 h with h | h
        · exact .inl h
        · exact .inr (List.mem_cons_of_mem _ h)
      · rcases List.mem_cons.1 h with h | h
        · exact .inr (h ▸ List.mem_cons_self)
        · rcases ih h with h | h
          · exact .inl h
          · exact .inr (List.mem_cons_of_mem _ h)

theorem lt_of_not_lt_of_ne {a b : String} (h : ¬ a < b) (hne : b ≠ a) : b < a := by
  rcases Classical.em (b < a) with hb | hb
  · exact hb
  · exact absurd (String.le_antisymm (String.not_lt.1 h) (String.not_lt.1 hb)) hne

theorem Ordered.insert {entries : List (String × α)} (h : Ordered entries) (name : String)
    (value : α) : Ordered (Members.insert name value entries) := by
  induction entries with
  | nil => simp [Members.insert, Ordered]
  | cons entry rest ih =>
    obtain ⟨hhead, hrest⟩ := List.pairwise_cons.1 h
    simp only [Members.insert]
    split
    next hlt =>
      refine List.pairwise_cons.2 ⟨fun x hx => ?_, h⟩
      rcases List.mem_cons.1 hx with rfl | hx
      · exact hlt
      · exact String.lt_trans hlt (hhead x hx)
    next hlt =>
      split
      next heq =>
        refine List.pairwise_cons.2 ⟨fun x hx => ?_, hrest⟩
        simpa [← heq] using hhead x hx
      next hne =>
        refine List.pairwise_cons.2 ⟨fun x hx => ?_, ih hrest⟩
        rcases mem_insert hx with rfl | hx
        · exact lt_of_not_lt_of_ne hlt hne
        · exact hhead x hx

theorem Ordered.erase {entries : List (String × α)} (h : Ordered entries) (name : String) :
    Ordered (Members.erase name entries) :=
  List.Pairwise.filter _ h

theorem ordered_foldl_insert (entries acc : List (String × α)) (h : Ordered acc) :
    Ordered (entries.foldl (fun acc entry => insert entry.1 entry.2 acc) acc) := by
  induction entries generalizing acc with
  | nil => exact h
  | cons entry rest ih => exact ih _ (h.insert entry.1 entry.2)

theorem ordered_ofList (entries : List (String × α)) : Ordered (ofList entries) :=
  ordered_foldl_insert entries [] List.Pairwise.nil

theorem find?_insert_self (name : String) (value : α) (entries : List (String × α)) :
    find? name (insert name value entries) = some value := by
  induction entries with
  | nil => simp [insert, find?]
  | cons entry rest ih =>
    simp only [insert]
    split
    · simp [find?]
    · split
      · simp [find?]
      next hne => simp [find?, hne, ih]

theorem find?_insert_of_ne {name other : String} (value : α) (entries : List (String × α))
    (hne : name ≠ other) : find? other (insert name value entries) = find? other entries := by
  induction entries with
  | nil => simp [insert, find?, hne]
  | cons entry rest ih =>
    simp only [insert]
    split
    · simp [find?, hne]
    · split
      next heq => simp [find?, hne, heq]
      next => simp [find?, ih]

end Localnet.Members
