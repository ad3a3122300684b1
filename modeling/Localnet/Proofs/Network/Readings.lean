import Localnet.Proofs.Network.Arguments

/-!
# Arguments as they are read

A node looks for a flag by the text that an argument begins with: `--`, the name of the flag and `=`. It
knows nothing of the table of flags that the arguments were made from. Of every flag that the network
decides it reads what was decided before anything else. It reads more of it only if there is a flag
whose name goes on behind that name and `=`.
-/

namespace Localnet

open Json (Value)

/-- What comes after `start` in a text that starts with it. -/
def after? (start text : String) : Option String :=
  (start.toList.isPrefixOf? text.toList).map String.ofList

theorem after?_eq_some_iff {start text rest : String} :
    after? start text = some rest ↔ text = start ++ rest := by
  rw [after?, Option.map_eq_some_iff]
  constructor
  · rintro ⟨chars, hchars, rfl⟩
    rw [List.isPrefixOf?_eq_some_iff_append_eq] at hchars
    rw [← String.toList_inj, String.toList_append, String.toList_ofList, hchars]
  · rintro rfl
    refine ⟨rest.toList, ?_, String.ofList_toList⟩
    rw [List.isPrefixOf?_eq_some_iff_append_eq, String.toList_append]

/-- Two arguments with one text: their names are the same, or one goes on behind the other and `=`. -/
theorem argument_eq_iff {name key value rest : String} (hname : '=' ∉ name.toList) :
    "--" ++ key ++ "=" ++ value = "--" ++ name ++ "=" ++ rest ↔
      (key = name ∧ value = rest) ∨
        ∃ more, key = name ++ "=" ++ more ∧ rest = more ++ "=" ++ value := by
  have hsep : "=".toList = ['='] := rfl
  simp only [← String.toList_inj, String.toList_append, List.append_assoc, List.append_cancel_left_eq,
    hsep, List.singleton_append]
  constructor
  · intro h
    rcases List.append_eq_append_iff.mp h with ⟨more, hkey, hrest⟩ | ⟨more, hkey, hrest⟩
    · cases more with
      | nil => exact .inl ⟨by simpa using hkey.symm, by simpa using hrest⟩
      | cons c more =>
          -- the name would hold the character that ends it
          refine absurd ?_ hname
          rw [hkey, ← (List.cons.inj hrest).1]
          simp
    · cases more with
      | nil => exact .inl ⟨by simpa using hkey, by simpa using hrest.symm⟩
      | cons c more =>
          obtain ⟨rfl, hmore⟩ := List.cons.inj hrest
          refine .inr ⟨String.ofList more, ?_, ?_⟩
          · rw [String.toList_ofList, hkey]
          · rw [String.toList_ofList]
            exact hmore
  · rintro (⟨hkey, hvalue⟩ | ⟨more, hkey, hrest⟩)
    · rw [hkey, hvalue]
    · rw [hkey, hrest]
      simp

theorem after?_argument {name : String} (hname : '=' ∉ name.toList) (key value : String) :
    after? ("--" ++ name ++ "=") ("--" ++ key ++ "=" ++ value) =
      if key = name then some value
      else (after? (name ++ "=") key).map (· ++ "=" ++ value) := by
  ext rest
  rw [after?_eq_some_iff, argument_eq_iff hname]
  split
  next hkey =>
    subst hkey
    rw [Option.some.injEq]
    refine ⟨fun h => ?_, fun h => .inl ⟨rfl, h⟩⟩
    rcases h with ⟨-, hvalue⟩ | ⟨more, hkey, -⟩
    · exact hvalue
    · -- no text goes on behind itself
      have hlength := congrArg (·.toList.length) hkey
      simp [String.toList_append] at hlength
  next hkey =>
    rw [Option.map_eq_some_iff]
    simp only [after?_eq_some_iff, hkey, false_and, false_or]
    exact exists_congr fun more => and_congr_right fun _ => eq_comm

namespace Flags

/-- All that is read of a flag in some arguments: what stands behind `--`, its name and `=`. -/
def readings (name : String) (args : List String) : List String :=
  args.filterMap (after? ("--" ++ name ++ "="))

/-- What is read of a flag because other flags have names that go on behind its name and `=`. -/
def lookalikes (name : String) (flags : Flags) : List String :=
  flags.entries.filterMap fun entry =>
    (after? (name ++ "=") entry.1).map (· ++ "=" ++ render entry.2)

theorem lookalikes_eq_nil_iff {name : String} {flags : Flags} :
    lookalikes name flags = [] ↔ ∀ other ∈ flags.names, after? (name ++ "=") other = none := by
  simp [lookalikes, Table.names, List.filterMap_eq_nil_iff]

theorem lt_of_after? {name key rest : String} (h : after? (name ++ "=") key = some rest) : name < key := by
  rw [after?_eq_some_iff] at h
  subst h
  change name.toList < (name ++ "=" ++ rest).toList
  rw [String.toList_append, String.toList_append, List.append_assoc]
  induction name.toList with
  | nil => exact List.nil_lt_cons _ _
  | cons c cs ih => exact List.cons_lt_cons_iff.mpr (.inr ⟨rfl, ih⟩)

/-- The value of a flag is read first, as its name comes before all that go on behind it. -/
theorem readings_arguments {name : String} {value : Value} {flags : Flags} (hname : '=' ∉ name.toList)
    (h : flags.get? name = some value) :
    readings name flags.arguments = render value :: lookalikes name flags := by
  obtain ⟨entries, hordered⟩ := flags
  rw [readings, arguments, List.filterMap_map]
  simp only [Function.comp_def, after?_argument hname]
  change Members.find? name entries = some value at h
  change _ = _ :: entries.filterMap _
  induction entries with
  | nil => cases h
  | cons entry rest ih =>
      obtain ⟨key, own⟩ := entry
      obtain ⟨hbefore, hrest⟩ := List.pairwise_cons.mp hordered
      by_cases hkey : key = name
      · -- all that is left has other names
        subst hkey
        rw [Members.find?, if_pos rfl] at h
        cases h
        have hself : after? (key ++ "=") key = none :=
          Option.eq_none_iff_forall_not_mem.mpr fun _ hmem => String.lt_irrefl _ (lt_of_after? hmem)
        simp only [List.filterMap_cons, if_true, hself, Option.map_none]
        refine congrArg _ (List.filterMap_congr fun other hother => if_neg ?_)
        rintro heq
        exact String.lt_irrefl _ (heq ▸ hbefore other hother)
      · rw [Members.find?, if_neg hkey] at h
        have hlt : key < name := hbefore _ (Members.mem_of_find?_eq_some h)
        have hnone : after? (name ++ "=") key = none :=
          Option.eq_none_iff_forall_not_mem.mpr fun _ hmem =>
            String.lt_irrefl _ (String.lt_trans hlt (lt_of_after? hmem))
        simp only [List.filterMap_cons, if_neg hkey, hnone, Option.map_none]
        exact ih hrest h

end Flags

namespace Flags

/-- Only flags whose names go on behind a name and `=` count for what is read of it besides its value. -/
theorem lookalikes_congr {name : String} {flags other : Flags}
    (h : ∀ more, flags.get? (name ++ "=" ++ more) = other.get? (name ++ "=" ++ more)) :
    lookalikes name flags = lookalikes name other := by
  have hfilter : ∀ flags : Flags, lookalikes name flags =
      (flags.entries.filter fun entry => (after? (name ++ "=") entry.1).isSome).filterMap fun entry =>
        (after? (name ++ "=") entry.1).map (· ++ "=" ++ render entry.2) := by
    intro flags
    rw [lookalikes, List.filterMap_filter]
    refine List.filterMap_congr fun entry _ => ?_
    cases after? (name ++ "=") entry.1 <;> rfl
  rw [hfilter, hfilter]
  refine congrArg _ (Table.filter_entries_congr (p := fun key => (after? (name ++ "=") key).isSome) ?_)
  intro key hkey
  obtain ⟨more, hmore⟩ := Option.isSome_iff_exists.mp hkey
  rw [after?_eq_some_iff.mp hmore]
  exact h more

end Flags

/-- What is read of a flag that the network decides, when a node is launched with some flags: its value
first, and more only because of other flags that the node was given. -/
structure Network.ReadFirst (given flags : Flags) (name : String) : Prop where
  readings : ∃ value, flags.get? name = some value ∧
    Flags.readings name flags.arguments = Flags.render value :: Flags.lookalikes name given
  once_iff : (∃ text, Flags.readings name flags.arguments = [text]) ↔
    ∀ other ∈ given.names, ∀ more, other ≠ name ++ "=" ++ more

theorem CarriesConfig.readFirst {config : NetworkConfig} {root : String} {node launched : NodeConfig}
    {w : World} {flags : Flags} (h : CarriesConfig config root node w launched flags) {name : String}
    (hname : name ∈ Network.decidedFlags) : Network.ReadFirst launched.flags flags name := by
  have hplain : ∀ name ∈ Network.decidedFlags, '=' ∉ name.toList := by decide
  have hlookalikes : Flags.lookalikes name flags = Flags.lookalikes name launched.flags := by
    refine Flags.lookalikes_congr fun more => ?_
    have hsep : '=' ∈ (name ++ "=" ++ more).toList := by
      simp only [String.toList_append, List.mem_append]
      exact .inl (.inr List.mem_cons_self)
    rw [h.recorded, get?_flagsOf]
    refine h.others _ (fun hdecided => hplain _ hdecided hsep) fun heq => ?_
    rw [heq] at hsep
    exact absurd hsep (by decide)
  obtain ⟨value, hvalue⟩ : ∃ value, flags.get? name = some value := by
    obtain ⟨id, valid, -, hid, -⟩ := h.accepted
    obtain ⟨http, hhttp, -⟩ := h.httpPort
    obtain ⟨staking, hstaking, -⟩ := h.stakingPort
    simp only [Network.decidedFlags, List.mem_cons, List.not_mem_nil, or_false] at hname
    rcases hname with rfl | rfl | rfl | rfl | rfl | rfl | rfl | rfl | rfl | rfl
    exacts [⟨_, hid⟩, ⟨_, h.dbDir⟩, ⟨_, h.logDir⟩, ⟨_, hhttp⟩, ⟨_, hstaking⟩, ⟨_, h.genesis⟩,
      ⟨_, h.stakingKey⟩, ⟨_, h.stakingCert⟩, ⟨_, h.bootstrapIps⟩, ⟨_, h.bootstrapIds⟩]
  have hreadings := Flags.readings_arguments (hplain name hname) hvalue
  rw [hlookalikes] at hreadings
  refine ⟨⟨value, hvalue, hreadings⟩, ?_⟩
  calc (∃ text, Flags.readings name flags.arguments = [text])
      ↔ Flags.lookalikes name launched.flags = [] := by
        rw [hreadings]
        simp
    _ ↔ ∀ other ∈ launched.flags.names, after? (name ++ "=") other = none :=
        Flags.lookalikes_eq_nil_iff
    _ ↔ ∀ other ∈ launched.flags.names, ∀ more, other ≠ name ++ "=" ++ more := by
        simp only [Option.eq_none_iff_forall_ne_some, ne_eq, after?_eq_some_iff]

/-- **Arguments as they are read.** Of every flag that the network decides, its value is read first,
whatever flags the node or the network was given; and nothing else is read of it, unless one of those
has a name that goes on behind the name of the flag and `=`. -/
theorem decided_flags_read_first (config : NetworkConfig) :
    (∀ (oracle : World.Oracle), ∀ x ∈ World.asked oracle (Network.create config).run .blank,
      ∀ launched args, x.2 = .launch launched args → ∃ root node flags,
        (node, launched.name) ∈ config.nodes.zip (Names.resolve config.nodes) ∧
        args = Flags.arguments flags ∧ CarriesConfig config root node x.1 launched flags ∧
        ∀ name ∈ Network.decidedFlags, Network.ReadFirst launched.flags flags name) ∧
    ∀ (oracle : World.Oracle) (network : Network) (w₀ : World),
      World.run oracle (Network.create config).run .blank = (.ok network, w₀) →
      ∀ (node : NodeConfig) (oracle : World.Oracle) (w : World),
      ∀ x ∈ World.asked oracle (network.add node).run w,
      ∀ launched args, x.2 = .launch launched args → ∃ flags,
        args = Flags.arguments flags ∧ CarriesConfig config network.root node x.1 launched flags ∧
        ∀ name ∈ Network.decidedFlags, Network.ReadFirst launched.flags flags name := by
  refine ⟨fun oracle x hx launched args hlaunch => ?_, ?_⟩
  · obtain ⟨root, node, flags, -, hnode, hargs, hcarries⟩ :=
      (ensures_create_carriesConfig config).asked oracle x hx launched args hlaunch
    exact ⟨root, node, flags, hnode, hargs, hcarries, fun name => hcarries.readFirst⟩
  · intro oracle network w₀ hcreate node oracle' w x hx launched args hlaunch
    have hrun := (ensures_create_carriesConfig config).run oracle
    rw [hcreate] at hrun
    obtain ⟨valid, root, hvalid, rfl⟩ := hrun network rfl
    obtain ⟨flags, -, hargs, hcarries⟩ :=
      (ensures_add_carriesConfig hvalid node w).asked oracle' x hx launched args hlaunch
    exact ⟨flags, hargs, hcarries, fun name => hcarries.readFirst⟩

/-- A beacon with flags whose names are like that of its network id: one is the same, one is longer,
and one goes on behind it and `=`. -/
def lookalikeConfig : NetworkConfig :=
  { soloConfig with
    nodes :=
      [{ plainNode "a" with
        isBeacon := true
        flags := .ofList [("network-id", Genesis.idValue 7), ("network-ids", .text "8"),
          ("network-id=8", .text "x")] }] }

/-- What is read of a flag when a node is launched. -/
def HostRequest.readings (name : String) : HostRequest → List String
  | .launch _ args => Flags.readings name args
  | _ => []

/-- The text behind the name of the flag is read as a network id that nothing has checked. -/
theorem two_ids_of_lookalike :
    (Validation.validate lookalikeConfig).isOk ∧
    ∃ x ∈ World.asked willingHost (Network.create lookalikeConfig).run .blank, ∃ launched args,
      x.2 = .launch launched args ∧ Flags.readings "network-id" args = ["7", "8=x"] := by
  have hends :
      ((World.asked willingHost (Network.create lookalikeConfig).run .blank).any fun x =>
        x.2.readings "network-id" == ["7", "8=x"]) = true := by
    decide +kernel
  refine ⟨by decide +kernel, ?_⟩
  obtain ⟨x, hx, hreadings⟩ := List.any_eq_true.mp hends
  have hreadings := eq_of_beq hreadings
  unfold HostRequest.readings at hreadings
  split at hreadings
  next launched args hlaunch => exact ⟨x, hx, launched, args, hlaunch, hreadings⟩
  next => cases hreadings

theorem read_first_of_lookalike :
    ∃ (network : Network) (w : World) (x y : World × HostRequest) (launched launched' : NodeConfig)
        (flags flags' : Flags),
      World.run willingHost (Network.create lookalikeConfig).run .blank = (.ok network, w) ∧
      x ∈ World.asked willingHost (Network.create lookalikeConfig).run .blank ∧
      x.2 = .launch launched flags.arguments ∧
      (∀ name ∈ Network.decidedFlags, Network.ReadFirst launched.flags flags name) ∧
      y ∈ World.asked willingHost (network.add (plainNode "b")).run w ∧
      y.2 = .launch launched' flags'.arguments ∧
      ∀ name ∈ Network.decidedFlags, Network.ReadFirst launched'.flags flags' name := by
  have hends :
      (World.asked willingHost (Network.create lookalikeConfig).run .blank).any (·.2.isLaunch) ∧
      (match World.run willingHost (Network.create lookalikeConfig).run .blank with
        | (.ok network, w) =>
          (World.asked willingHost (network.add (plainNode "b")).run w).any (·.2.isLaunch)
        | (.error _, _) => false) = true := by
    decide +kernel
  obtain ⟨hcreated, hadded⟩ := hends
  obtain ⟨x, hx, launched, args, hlaunch⟩ := exists_launch_of_any hcreated
  obtain ⟨root, node, flags, -, rfl, -, hfirst⟩ :=
    (decided_flags_read_first lookalikeConfig).1 willingHost x hx launched args hlaunch
  split at hadded
  next network w hcreate =>
    obtain ⟨y, hy, launched', args', hlaunch'⟩ := exists_launch_of_any hadded
    obtain ⟨flags', rfl, -, hfirst'⟩ := (decided_flags_read_first lookalikeConfig).2 willingHost network w
      hcreate (plainNode "b") willingHost w y hy launched' args' hlaunch'
    exact ⟨network, w, x, y, launched, launched', flags, flags', hcreate, hx, hlaunch, hfirst, hy,
      hlaunch', hfirst'⟩
  next => cases hadded

end Localnet
