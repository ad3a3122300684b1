import Localnet.Proofs.Json.Yields

/-!
# Records by their fields

What every field of a record keeps holds of the record that is read. Two kinds of records whose fields
have the same names and read alike are read alike.
-/

namespace Localnet.Json

/-! ### Reading alike -/

/-- Results that are related, or failures that are the same. -/
inductive Alike {α β : Type} (R : α → β → Prop) :
    Except Fault (α × List Char) → Except Fault (β × List Char) → Prop
  | ok {a : α} {b : β} (h : R a b) (rest : List Char) : Alike R (.ok (a, rest)) (.ok (b, rest))
  | error (fault : Fault) : Alike R (.error fault) (.error fault)

/-- Readers that take the same and give something related. -/
def ReadAlike {α β : Type} (R : α → β → Prop) (x : Reader α) (y : Reader β) : Prop :=
  ∀ cs, Alike R (x cs) (y cs)

section ReadAlike

variable {α β α' β' : Type} {R : α → β → Prop} {S : α' → β' → Prop}

theorem Alike.refl (x : Except Fault (α × List Char)) : Alike Eq x x := by
  cases x with
  | ok found => exact .ok rfl found.2
  | error fault => exact .error fault

theorem Alike.bind {x : Except Fault (α × List Char)} {y : Except Fault (β × List Char)}
    {f : α × List Char → Except Fault (α' × List Char)} {g : β × List Char → Except Fault (β' × List Char)}
    (h : Alike R x y) (hnext : ∀ a b rest, R a b → Alike S (f (a, rest)) (g (b, rest))) :
    Alike S (x >>= f) (y >>= g) := by
  cases h with
  | ok h rest => exact hnext _ _ rest h
  | error fault => exact .error fault

/-- What both readers read first, and alike, is one thing. -/
theorem Alike.after {γ : Type} {f : γ × List Char → Except Fault (α' × List Char)}
    {g : γ × List Char → Except Fault (β' × List Char)} (x : Except Fault (γ × List Char))
    (hnext : ∀ c rest, Alike S (f (c, rest)) (g (c, rest))) : Alike S (x >>= f) (x >>= g) :=
  (Alike.refl x).bind fun c c' rest hc => by
    cases hc
    exact hnext c rest

theorem ReadAlike.refl (x : Reader α) : ReadAlike Eq x x := fun cs => .refl (x cs)

theorem ReadAlike.map {x : Reader α} {y : Reader β} {f : α → α'} {g : β → β'} (h : ReadAlike R x y)
    (hmap : ∀ a b, R a b → S (f a) (g b)) : ReadAlike S (x.map f) (y.map g) :=
  fun cs => (h cs).bind fun a b rest hab => .ok (hmap a b hab) rest

theorem readAlike_mistyped (expected : String) : ReadAlike R (mistyped expected) (mistyped expected) := by
  intro cs
  unfold mistyped
  dsimp only
  split
  · exact .error _
  · split
    · exact .error _
    · split
      · exact .error _
      -- whatever is read first, the same refusal follows
      · repeat' split
        all_goals exact .after _ fun _ _ => .error _

end ReadAlike

/-! ### What fields keep -/

section Yields

variable {α σ : Type} {good : α → Prop} {expected : String} {depth : Nat}

theorem yields_mistyped : Yields (mistyped expected) good := by
  intro cs a rest hread
  have halike := readAlike_mistyped (R := fun (_ _ : α) => False) expected cs
  rw [hread] at halike
  cases halike with
  | ok h => exact h.elim

theorem yields_optional {reader : Reader α} (h : Yields reader good) :
    Yields (optional reader) fun found => ∀ a ∈ found, good a := by
  have hsome : Yields (reader.map some) fun found => ∀ a ∈ found, good a := by
    refine h.map fun a ha b hb => ?_
    cases hb
    exact ha
  intro cs found rest hread
  unfold optional at hread
  split at hread
  · split at hread
    · obtain ⟨_, _, -, hread⟩ := bind_eq_ok hread
      cases hread
      exact nofun
    · exact hsome _ _ _ hread
  · exact hsome _ _ _ hread

theorem yields_byBracket {list object : Option (Reader α)} (hlist : ∀ reader ∈ list, Yields reader good)
    (hobject : ∀ reader ∈ object, Yields reader good) : Yields (byBracket list object expected) good := by
  intro cs a rest hread
  unfold byBracket at hread
  split at hread
  · cases hread
  · split at hread
    next reader hselected =>
      split at hselected
      · exact hlist reader hselected _ _ _ hread
      · split at hselected
        · exact hobject reader hselected _ _ _ hread
        · cases hselected
    next => exact yields_mistyped _ _ _ hread

theorem yields_nested {inner : Nat → Reader α} (h : ∀ d, depth = d + 1 → Yields (inner d) good) :
    Yields (nested depth inner) good := by
  intro cs a rest hread
  cases depth with
  | zero => cases hread
  | succ d => exact h d rfl _ _ _ hread

theorem yields_list {item : Nat → Reader α} (h : ∀ d, depth = d + 1 → Yields (item d) good) :
    Yields (list item depth) fun as => ∀ a ∈ as, good a := by
  refine yields_byBracket (fun reader hreader => ?_) nofun
  cases hreader
  exact yields_nested fun d hd => yields_listOf (h d hd)

theorem yields_table (depth : Nat) : Yields (table depth) fun t => Fits depth (.object t.entries) := by
  refine yields_byBracket nofun fun reader hreader => ?_
  cases hreader
  refine yields_nested fun d hd => ?_
  subst hd
  exact (yields_objectOf (yields_value d)).map fun entries hentries =>
    fits_object (Members.ordered_ofList entries) (forall_mem_ofList (Fits d) hentries)

def Field.Keeps (good : σ → Prop) (field : Field σ) : Prop :=
  Yields field.read fun put => ∀ record, good record → good (put record)

variable {record : σ} {good : σ → Prop} {fields : List (Field σ)}

theorem Field.keeps_of {name : String} {reader : Reader α} {put : α → σ → σ} {fine : α → Prop}
    (h : Yields reader fine) (hput : ∀ a, fine a → ∀ record, good record → good (put a record)) :
    (Field.of name reader put).Keeps good :=
  h.map hput

theorem yields_fieldMembers (hfields : ∀ field ∈ fields, field.Keeps good) (fuel : Nat)
    (seen : List String) (first : Bool) (hrecord : good record) :
    Yields (fieldMembers fields fuel seen first record) good := by
  induction fuel generalizing seen first record with
  | zero => exact fun _ _ _ hread => nomatch hread
  | succ fuel ih =>
      intro cs found rest hread
      obtain ⟨step, afterStep, -, hread⟩ := bind_eq_ok hread
      cases step with
      | finished =>
          cases hread
          exact hrecord
      | item =>
          obtain ⟨name, afterName, -, hread⟩ := bind_eq_ok hread
          dsimp only at hread
          split at hread
          next field hfield =>
            split at hread
            · unfold repeated at hread
              split at hread <;> cases hread
            · obtain ⟨⟨⟩, afterColon, -, hread⟩ := bind_eq_ok hread
              obtain ⟨put, afterValue, hput, hread⟩ := bind_eq_ok hread
              have hkeeps := hfields field (List.mem_of_find?_eq_some hfield)
              exact ih _ _ (hkeeps _ _ _ hput record hrecord) _ _ _ hread
          next =>
            obtain ⟨⟨⟩, afterColon, -, hread⟩ := bind_eq_ok hread
            obtain ⟨⟨⟩, afterValue, -, hread⟩ := bind_eq_ok hread
            exact ih _ _ hrecord _ _ _ hread

theorem yields_fieldItems (hfields : ∀ field ∈ fields, field.Keeps good) (first : Bool)
    (hrecord : good record) : Yields (fieldItems fields first record) good := by
  induction fields generalizing first record with
  | nil =>
      intro cs found rest hread
      cases hread
      exact hrecord
  | cons field fields ih =>
      obtain ⟨hfield, hfields⟩ := List.forall_mem_cons.mp hfields
      intro cs found rest hread
      obtain ⟨step, afterStep, -, hread⟩ := bind_eq_ok hread
      cases step with
      | finished =>
          cases hread
          exact hrecord
      | item =>
          obtain ⟨put, afterValue, hput, hread⟩ := bind_eq_ok hread
          exact ih hfields false (hfield _ _ _ hput record hrecord) _ _ _ hread

/-- What holds of the defaults and is kept by every field holds of the record that is read. -/
theorem yields_record {fields : Nat → List (Field σ)} {defaults : σ}
    (hfields : ∀ d, depth = d + 1 → ∀ field ∈ fields d, field.Keeps good) (hdefaults : good defaults) :
    Yields (Json.record expected fields defaults depth) good := by
  refine yields_byBracket (fun reader hreader => ?_) fun reader hreader => ?_
  · cases hreader
    refine yields_nested fun d hd cs found rest hread => ?_
    obtain ⟨read, _, hitems, hread⟩ := bind_eq_ok hread
    obtain ⟨⟨⟩, _, -, hread⟩ := bind_eq_ok hread
    cases hread
    exact yields_fieldItems (hfields d hd) true hdefaults _ _ _ hitems
  · cases hreader
    refine yields_nested fun d hd cs found rest hread => ?_
    obtain ⟨read, _, hmembers, hread⟩ := bind_eq_ok hread
    obtain ⟨⟨⟩, _, -, hread⟩ := bind_eq_ok hread
    cases hread
    exact yields_fieldMembers (hfields d hd) _ _ _ hdefaults _ _ _ hmembers

end Yields

/-! ### Fields that read alike -/

section ReadAlike

variable {α β α' β' : Type} {R : α → β → Prop} {S : α' → β' → Prop}

theorem readAlike_items {x : Reader α} {y : Reader β} (h : ReadAlike R x y) (fuel : Nat) (first : Bool) :
    ReadAlike (List.Forall₂ R) (items x fuel first) (items y fuel first) := by
  induction fuel generalizing first with
  | zero => exact fun cs => .error _
  | succ fuel ih =>
      intro cs
      refine Alike.after (listStep first cs) fun step rest => ?_
      cases step with
      | finished => exact .ok .nil rest
      | item =>
          refine (h rest).bind fun a b rest hab => ?_
          exact (ih false rest).bind fun as bs rest hrest => .ok (.cons hab hrest) rest

theorem readAlike_listOf {x : Reader α} {y : Reader β} (h : ReadAlike R x y) :
    ReadAlike (List.Forall₂ R) (listOf x) (listOf y) := fun cs =>
  (readAlike_items h _ true cs).bind fun _ _ rest hall =>
    .after (listEnd rest) fun _ rest => .ok hall rest

theorem readAlike_nested {depth : Nat} {inner : Nat → Reader α} {inner' : Nat → Reader β}
    (h : ∀ d, ReadAlike R (inner d) (inner' d)) :
    ReadAlike R (nested depth inner) (nested depth inner') := by
  intro cs
  cases depth with
  | zero => exact .error _
  | succ d => exact h d cs.tail

theorem readAlike_byBracket {list object : Option (Reader α)} {list' object' : Option (Reader β)}
    (hlist : Option.Rel (ReadAlike R) list list') (hobject : Option.Rel (ReadAlike R) object object')
    (expected : String) :
    ReadAlike R (byBracket list object expected) (byBracket list' object' expected) := by
  intro cs
  unfold byBracket
  split
  · exact .error _
  next c rest _ =>
    have hselected : Option.Rel (ReadAlike R) (if c = '[' then list else if c = '{' then object else none)
        (if c = '[' then list' else if c = '{' then object' else none) := by
      split
      · exact hlist
      · split
        · exact hobject
        · exact .none
    generalize (if c = '[' then list else if c = '{' then object else none) = selected at hselected ⊢
    generalize (if c = '[' then list' else if c = '{' then object' else none) = selected' at hselected ⊢
    cases hselected with
    | none => exact readAlike_mistyped expected _
    | some h => exact h _

theorem readAlike_list {item : Nat → Reader α} {item' : Nat → Reader β}
    (h : ∀ d, ReadAlike R (item d) (item' d)) (depth : Nat) :
    ReadAlike (List.Forall₂ R) (list item depth) (list item' depth) :=
  readAlike_byBracket (.some (readAlike_nested fun d => readAlike_listOf (h d))) .none _

variable {σ τ : Type} {T : σ → τ → Prop}

/-- Fields of one name that put values into records alike. -/
structure Field.Alike (T : σ → τ → Prop) (x : Field σ) (y : Field τ) : Prop where
  name : x.name = y.name
  read : ReadAlike (fun put put' => ∀ record record', T record record' → T (put record) (put' record'))
    x.read y.read

theorem Field.alike_of {reader : Reader α} {reader' : Reader β} (h : ReadAlike R reader reader')
    {put : α → σ → σ} {put' : β → τ → τ}
    (hput : ∀ a b, R a b → ∀ record record', T record record' → T (put a record) (put' b record'))
    (name : String) : Field.Alike T (.of name reader put) (.of name reader' put') :=
  ⟨rfl, h.map hput⟩

variable {xs : List (Field σ)} {ys : List (Field τ)} {record : σ} {record' : τ}

theorem Field.Alike.find? (h : List.Forall₂ (Field.Alike T) xs ys) (name : String) :
    Option.Rel (Field.Alike T) (xs.find? (·.name = name)) (ys.find? (·.name = name)) := by
  induction h with
  | nil => exact .none
  | cons h _ ih =>
      rw [List.find?_cons, List.find?_cons, h.name]
      split
      · exact .some h
      · exact ih

theorem readAlike_repeated (name : String) : ReadAlike R (repeated name) (repeated name) := by
  intro cs
  unfold repeated
  split <;> exact .error _

theorem readAlike_fieldMembers (h : List.Forall₂ (Field.Alike T) xs ys) (fuel : Nat) (seen : List String)
    (first : Bool) (hrecord : T record record') :
    ReadAlike T (fieldMembers xs fuel seen first record) (fieldMembers ys fuel seen first record') := by
  induction fuel generalizing seen first record record' with
  | zero => exact fun cs => .error _
  | succ fuel ih =>
      intro cs
      refine Alike.after (objectStep first cs) fun step rest => ?_
      cases step with
      | finished => exact .ok hrecord rest
      | item =>
          refine Alike.after (textBody rest) fun name rest => ?_
          have hfound := Field.Alike.find? h name
          dsimp only
          generalize xs.find? (·.name = name) = x at hfound ⊢
          generalize ys.find? (·.name = name) = y at hfound ⊢
          cases hfound with
          | none =>
              refine Alike.after (colon rest) fun _ rest => ?_
              exact Alike.after (skip rest) fun _ rest => ih seen false hrecord rest
          | some hfield =>
              dsimp only
              split
              · exact readAlike_repeated name rest
              · refine Alike.after (colon rest) fun _ rest => ?_
                exact (hfield.read rest).bind fun put put' rest hput =>
                  ih _ false (hput record record' hrecord) rest

theorem readAlike_fieldItems (h : List.Forall₂ (Field.Alike T) xs ys) (first : Bool)
    (hrecord : T record record') :
    ReadAlike T (fieldItems xs first record) (fieldItems ys first record') := by
  -- the records stay related, field after field
  induction h generalizing first record record' with
  | nil => exact fun cs => .ok hrecord cs
  | cons hfield _ ih =>
      intro cs
      refine Alike.after (listStep first cs) fun step rest => ?_
      cases step with
      | finished => exact .ok hrecord rest
      | item =>
          exact (hfield.read rest).bind fun put put' rest hput =>
            ih false (hput record record' hrecord) rest

/-- Records whose fields are alike one by one are read alike. -/
theorem readAlike_record {fields : Nat → List (Field σ)} {fields' : Nat → List (Field τ)}
    (hfields : ∀ d, List.Forall₂ (Field.Alike T) (fields d) (fields' d)) {defaults : σ} {defaults' : τ}
    (hdefaults : T defaults defaults') (expected : String) (depth : Nat) :
    ReadAlike T (Json.record expected fields defaults depth)
      (Json.record expected fields' defaults' depth) := by
  refine readAlike_byBracket (.some (readAlike_nested fun d cs => ?_))
    (.some (readAlike_nested fun d cs => ?_)) _
  · exact (readAlike_fieldItems (hfields d) true hdefaults cs).bind fun _ _ rest hread =>
      .after (listEnd rest) fun _ rest => .ok hread rest
  · exact (readAlike_fieldMembers (hfields d) _ [] true hdefaults cs).bind fun _ _ rest hread =>
      .after (objectEnd rest) fun _ rest => .ok hread rest

/-- A document is read as what another reader makes of it, if the readers are alike. -/
theorem read_eq_map {x : Reader α} {y : Reader β} {f : α → β} (h : ReadAlike (fun a b => f a = b) x y)
    (text : String) : read y text = (read x text).map f := by
  unfold read Reader.run?
  have halike := h text.toList
  generalize x text.toList = result at halike ⊢
  generalize y text.toList = result' at halike ⊢
  cases halike with
  | error fault => rfl
  | @ok a b hab rest =>
      subst hab
      change Except.mapError _ (ended rest >>= fun _ => .ok (f a)) =
        (Except.mapError _ (ended rest >>= fun _ => .ok a)).map f
      cases ended rest <;> rfl

end ReadAlike

end Localnet.Json
