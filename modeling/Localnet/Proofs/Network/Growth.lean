import Localnet.Proofs.Network.Alongside
import Localnet.Proofs.Network.Life

/-!
# Nodes at creation, and nodes that are added

A network that is created with some nodes and then given the others, one by one, is the network that is
created with all of them: with the same answers, everything but the root directory is the same.
-/

namespace Localnet

open Network (chosenName afterNaming)

variable {network network' : Network} {supply : Supply}

/-! ### Names -/

/-- If the names that are still to come are free, the next one is what an addition picks. -/
theorem Names.nextFree_of_names_free {r : Registry} {node : NodeConfig} {rest : List NodeConfig}
    (hfree : ∀ name ∈ Names.resolveFrom r.nextNumber (node :: rest), name ∉ r.nodes.names)
    (hname : node.name = "") :
    Names.nextFree r.nextNumber r.nodes.names =
      (Names.generated r.nextNumber, r.nextNumber + 1) := by
  refine Names.nextFree_of_free (hfree _ ?_)
  rw [Names.resolveFrom, if_pos hname]
  exact List.mem_cons_self

theorem Names.resolveFrom_cons_of_free {r : Registry} {node : NodeConfig} {rest : List NodeConfig}
    (hfree : ∀ name ∈ Names.resolveFrom r.nextNumber (node :: rest), name ∉ r.nodes.names) :
    Names.resolveFrom r.nextNumber (node :: rest) =
      chosenName node r :: Names.resolveFrom (afterNaming node r).nextNumber rest := by
  unfold Network.chosenName Network.afterNaming
  by_cases hname : node.name = ""
  · rw [if_pos hname, if_pos hname, Names.nextFree_of_names_free hfree hname, Names.resolveFrom,
      if_pos hname]
  · rw [if_neg hname, if_neg hname, Names.resolveFrom, if_neg hname]

theorem Names.generatedCount_cons_of_free {r : Registry} {node : NodeConfig} {rest : List NodeConfig}
    (hfree : ∀ name ∈ Names.resolveFrom r.nextNumber (node :: rest), name ∉ r.nodes.names) :
    (afterNaming node r).nextNumber + Names.generatedCount rest =
      r.nextNumber + Names.generatedCount (node :: rest) := by
  unfold Network.afterNaming
  rw [Names.generatedCount_cons]
  by_cases hname : node.name = ""
  · rw [if_pos hname, if_pos hname, Names.nextFree_of_names_free hfree hname]
    dsimp only
    omega
  · rw [if_neg hname, if_neg hname, Nat.add_zero]

/-! ### One node -/

/-- A start has no part in the number of the next generated name, nor in whether the network is
stopped. -/
theorem StartEnd.registry_kept {isPlan : Plan → Prop} {name : String} {w w' : World}
    {result : Except NetworkError Node} (h : StartEnd network isPlan name w result w') :
    w'.registry.nextNumber = w.registry.nextNumber ∧ w'.registry.stopped = w.registry.stopped := by
  cases h with
  | failed hend => rw [hend.registry_eq]; exact ⟨rfl, rfl⟩
  | @registered node w' hend =>
      change w'.registry.nextNumber = _ ∧ w'.registry.stopped = _
      rw [hend.registry_eq]
      exact ⟨rfl, rfl⟩

theorem ensures_startNodes_kept (network : Network)
    (nodes : List (NodeConfig × String × ValidatedNode)) (w : World) :
    World.Ensures World.anything
      (fun _ w' => w'.registry.nextNumber = w.registry.nextNumber ∧
        w'.registry.stopped = w.registry.stopped)
      (network.startNodes nodes).run w := by
  induction nodes generalizing w with
  | nil => exact ⟨rfl, rfl⟩
  | cons entry rest ih =>
      obtain ⟨config, name, valid⟩ := entry
      rw [Network.startNodes, World.ensures_run_bind]
      refine (network.ensures_startNode config name valid w).ends fun result w' hend => ?_
      have hkept := hend.registry_kept
      cases result with
      | error e => exact hkept
      | ok node =>
          refine (ih w').mono (fun _ _ => id) fun _ _ hrest => ?_
          exact ⟨hrest.1.trans hkept.1, hrest.2.trans hkept.2⟩

theorem run_addedName (oracle : World.Oracle) (config : NodeConfig) (w : World) :
    World.run oracle (Network.addedName config) w = (chosenName config w.registry, w.named config) := by
  have hends : World.Ensures World.anything
      (fun name w' => name = chosenName config w.registry ∧ w' = w.named config)
      (Network.addedName config) w :=
    Network.ensures_addedName ⟨rfl, rfl⟩
  obtain ⟨hname, hworld⟩ := hends.run oracle
  exact Prod.ext hname hworld

/-- The addition of a valid node whose name is free is its start. -/
theorem run_add_of_free {oracle : World.Oracle} {config : NodeConfig} {valid : ValidatedNode}
    {w : World} (hrunning : w.registry.stopped = false) (hvalid : network.checked config = .ok valid)
    (hfree : chosenName config w.registry ∉ w.registry.nodes.names) :
    World.run oracle (network.add config).run w =
      World.run oracle (network.startNode config (chosenName config w.registry) valid).run
        (w.named config) := by
  have hcontains : (w.named config).registry.nodes.contains (chosenName config w.registry) = false := by
    rw [World.named, Network.afterNaming_nodes]
    exact Table.contains_eq_false_iff.mpr hfree
  unfold Network.add Network.running
  change World.run oracle (ExceptT.run ((if w.registry.stopped then _ else _) >>= _)) w = _
  rw [hrunning]
  change World.run oracle (ExceptT.run (ExceptT.mk (pure
    ((network.checked config).mapError NetworkError.invalid)) >>= _)) w = _
  rw [hvalid]
  change World.run oracle (ExceptT.run (ExceptT.lift (Network.addedName config) >>= _)) w = _
  rw [ExceptT.run_bind, ExceptT.run_lift, ← bind_pure_comp, World.run_bind, World.run_bind,
    run_addedName]
  change World.run oracle (ExceptT.run (if (w.named config).registry.nodes.contains
    (chosenName config w.registry) then _ else _)) (w.named config) = _
  rw [hcontains]
  rfl

/-- A world that is ready for some names: it runs, and they are the names that its nodes do not have. -/
structure World.ReadyFor (names : List String) (roll : List Node) (w : World) : Prop where
  inOrder : w.InOrder roll
  running : w.registry.stopped = false
  nodup : (roll.map (·.name) ++ names).Nodup

theorem World.ReadyFor.free {names : List String} {roll : List Node} {w : World}
    (h : w.ReadyFor names roll) : ∀ name ∈ names, name ∉ w.registry.nodes.names :=
  fun _ hname => h.inOrder.enrolled.not_mem_names h.nodup hname

theorem World.ReadyFor.started {oracle : World.Oracle} {config : NodeConfig} {name : String}
    {valid : ValidatedNode} {names : List String} {roll : List Node} {node : Node} {w w' : World}
    (h : w.ReadyFor (name :: names) roll)
    (hrun : World.run oracle (network.startNode config name valid).run w = (.ok node, w')) :
    w'.ReadyFor names (roll ++ [node]) ∧ w'.registry.nextNumber = w.registry.nextNumber := by
  have hend := (network.ensures_startNode config name valid w).run oracle
  rw [hrun] at hend
  have hkept := hend.registry_kept
  have hname : node.name = name := by
    cases hend with
    | registered hend => exact hend.name_eq
  have hnodup := h.nodup
  rw [List.append_cons] at hnodup
  refine ⟨⟨hend.inOrder h.inOrder (h.free name List.mem_cons_self), hkept.2.trans h.running, ?_⟩,
    hkept.1⟩
  rwa [List.map_append, List.map_singleton, hname]

theorem World.ReadyFor.named {names : List String} {roll : List Node} {w : World}
    (h : w.ReadyFor names roll) (config : NodeConfig) : (w.named config).ReadyFor names roll where
  inOrder := h.inOrder.named config
  running := by
    unfold World.named Network.afterNaming
    split <;> exact h.running
  nodup := h.nodup

theorem World.Alike.named {w w' : World} (h : w.Alike network network' w') (config : NodeConfig) :
    w.Alike network network' (w'.named config) := by
  unfold World.named Network.afterNaming
  refine ⟨?_, h.history⟩
  split
  · exact ⟨h.registry.nodes, h.registry.beacons, h.registry.ports, h.registry.stopped⟩
  · exact h.registry

/-- A node that is started at one place is added at the other. -/
theorem run_add_alike (hmoved : network.Moved network') {config : NodeConfig} {label : String}
    {valid : ValidatedNode} {names : List String} {roll : List Node} {node : Node} {w w₁ w₂ : World}
    (hvalid : Validation.validateNode config label (network'.flagsOf config) network'.networkId =
      .ok valid)
    (halike : w.Alike network network' w₁)
    (hready : w₁.ReadyFor (chosenName config w₁.registry :: names) roll)
    (hrun : World.run (supply.host network.root)
      (network.startNode config (chosenName config w₁.registry) valid).run w = (.ok node, w₂)) :
    ∃ added w₃, World.run (supply.host network'.root) (network'.add config).run w₁ = (.ok added, w₃) ∧
      w₂.Alike network network' w₃ ∧ w₃.ReadyFor names (roll ++ [added]) ∧
      w₃.registry.nextNumber = (afterNaming config w₁.registry).nextNumber := by
  have hboth : Alongside supply network network' (BothOk (Node.Alike network network'))
      (network.startNode config (chosenName config w₁.registry) valid).run
      (network'.startNode config (chosenName config w₁.registry) valid).run :=
    .startNode hmoved config _ valid
  have hstart := hboth w (w₁.named config) (halike.named config)
  have hadd : World.run (supply.host network'.root) (network'.add config).run w₁ = _ :=
    run_add_of_free hready.running (Validation.validateNode_of_label hvalid _)
      (hready.free _ List.mem_cons_self)
  rw [hrun, ← hadd] at hstart
  obtain ⟨hresult, hworld⟩ := hstart
  cases hended : World.run (supply.host network'.root) (network'.add config).run w₁ with
  | mk result w₃ =>
      rw [hended] at hresult hworld
      cases result with
      | error e => exact hresult.elim
      | ok added =>
          obtain ⟨hready', hnumber⟩ := (hready.named config).started (hadd ▸ hended)
          exact ⟨added, w₃, rfl, hworld, hready', hnumber⟩

/-! ### Several nodes -/

theorem Network.startNodes_append (network : Network)
    (first second : List (NodeConfig × String × ValidatedNode)) :
    network.startNodes (first ++ second) =
      network.startNodes first >>= fun _ => network.startNodes second := by
  induction first with
  | nil => simp [Network.startNodes]
  | cons entry rest ih =>
      obtain ⟨config, name, valid⟩ := entry
      rw [List.cons_append, Network.startNodes, Network.startNodes, bind_assoc]
      exact bind_congr fun _ => ih

/-- Nodes that are started at one place are added at the other. -/
theorem run_mapM_add_alike (hmoved : network.Moved network') {config : NetworkConfig}
    (hflags : network'.flags = config.effectiveFlags) {nodes : List NodeConfig} {index : Nat}
    {valid : List ValidatedNode}
    (hvalid : Validation.validateNodes config network'.networkId index nodes = .ok valid)
    {roll : List Node} {w w₁ w₂ : World} (halike : w.Alike network network' w₁)
    (hready : w₁.ReadyFor (Names.resolveFrom w₁.registry.nextNumber nodes) roll)
    (hrun : World.run (supply.host network.root) (network.startNodes
      (nodes.zip ((Names.resolveFrom w₁.registry.nextNumber nodes).zip valid))).run w = (.ok (), w₂)) :
    ∃ added w₃,
      World.run (supply.host network'.root) (nodes.mapM network'.add).run w₁ = (.ok added, w₃) ∧
      w₂.Alike network network' w₃ ∧
      w₃.registry.nextNumber = w₁.registry.nextNumber + Names.generatedCount nodes := by
  induction nodes generalizing index valid roll w w₁ with
  | nil =>
      cases hrun
      exact ⟨[], w₁, rfl, halike, rfl⟩
  | cons node rest ih =>
      simp only [Validation.validateNodes, Validation.bind_eq_ok_iff] at hvalid
      obtain ⟨first, hfirst, others, hothers, heq⟩ := hvalid
      cases heq
      have hcount := Names.generatedCount_cons_of_free hready.free
      have hnames := Names.resolveFrom_cons_of_free hready.free
      rw [hnames] at hready hrun
      obtain ⟨started, w', hstart, hrest⟩ := World.run_run_bind_eq_ok_iff.mp hrun
      have hflagsOf : config.flagsOf node = network'.flagsOf node := by
        rw [Network.flagsOf, hflags]
        rfl
      rw [hflagsOf] at hfirst
      obtain ⟨added, w₁', hadd, halike', hready', hnumber⟩ :=
        run_add_alike hmoved hfirst halike hready hstart
      rw [← hnumber] at hready' hrest hcount
      obtain ⟨nodes, w₃, hmapM, hworld, hnumbers⟩ := ih hothers halike' hready' hrest
      refine ⟨added :: nodes, w₃, ?_, hworld, hnumbers.trans hcount⟩
      rw [List.mapM_cons]
      refine World.run_run_bind_eq_ok_iff.mpr ⟨added, w₁', hadd, ?_⟩
      exact World.run_run_bind_eq_ok_iff.mpr ⟨nodes, w₃, hmapM, rfl⟩

/-! ### Creation -/

theorem run_create_eq_ok {config : NetworkConfig} {root : String} {w : World}
    (h : World.run (supply.host root) (Network.create config).run .blank = (.ok network, w)) :
    ∃ valid, Validation.validate config = .ok valid ∧ network = .ofValid config valid root ∧
      World.run (supply.host root) (network.startNodes
        (config.nodes.zip (valid.names.zip valid.nodes))).run (.rooted root valid.generated) =
        (.ok (), w) := by
  obtain ⟨valid, root', hvalid, hroot, hnetwork, hrun⟩ := starts_of_create h
  cases hroot
  subst hnetwork
  exact ⟨valid, hvalid, rfl, hrun⟩

theorem World.rooted_alike (generated generated' : Nat) :
    (World.rooted network.root generated).Alike network network'
      (World.rooted network'.root generated') where
  registry := ⟨.nil, rfl, rfl, rfl⟩
  history := .cons .makeRoot .nil

/-- The same nodes are started at two new places. -/
theorem alike_of_startNodes (hmoved : network.Moved network')
    {nodes : List (NodeConfig × String × ValidatedNode)} {generated generated' : Nat} {w w' : World}
    (hrun : World.run (supply.host network.root) (network.startNodes nodes).run
      (.rooted network.root generated) = (.ok (), w))
    (hrun' : World.run (supply.host network'.root) (network'.startNodes nodes).run
      (.rooted network'.root generated') = (.ok (), w')) :
    w.Alike network network' w' := by
  have hboth : Alongside supply network network' (BothOk (· = ·)) (network.startNodes nodes).run
      (network'.startNodes nodes).run :=
    .startNodes hmoved nodes
  have halike := (hboth _ _ (World.rooted_alike generated generated')).2
  rwa [hrun, hrun'] at halike

/-- A network is created with the first of some nodes, and is ready for the others. -/
theorem readyFor_of_create {config : NetworkConfig} {rest : List NodeConfig} {root : String}
    {w : World} (hnodup : (Names.resolve (config.nodes ++ rest)).Nodup)
    (hcreate : World.run (supply.host root) (Network.create config).run .blank = (.ok network, w)) :
    (∃ roll, w.ReadyFor (Names.resolveFrom w.registry.nextNumber rest) roll) ∧
      w.registry.nextNumber = Names.generatedCount config.nodes := by
  obtain ⟨valid, hvalid, rfl, hrun⟩ := run_create_eq_ok hcreate
  have hkept := (ensures_startNodes_kept (.ofValid config valid root)
    (config.nodes.zip (valid.names.zip valid.nodes)) (.rooted root valid.generated)).run
    (supply.host root)
  have hroll := (ensures_create config).run (supply.host root)
  rw [hrun] at hkept
  rw [hcreate] at hroll
  obtain ⟨roll, hnames, hw⟩ := hroll rfl
  have hnumber : w.registry.nextNumber = Names.generatedCount config.nodes :=
    hkept.1.trans (Validation.accepted_of_validate hvalid).generated
  refine ⟨⟨roll, hw, hkept.2, ?_⟩, hnumber⟩
  rw [hnames, hnumber]
  rwa [Names.resolve, Names.resolveFrom_append, Nat.zero_add] at hnodup

/-- The nodes of a valid configuration are the first of them, validated by themselves, and the others. -/
theorem zip_of_validate {config : NetworkConfig} {first second : List NodeConfig}
    {valid valid' : ValidatedNetwork} (hnodes : config.nodes = first ++ second)
    (h : Validation.Accepted config valid)
    (h' : Validation.Accepted { config with nodes := first } valid') :
    valid'.networkId = valid.networkId ∧ ∃ others,
      Validation.validateNodes config valid.networkId first.length second = .ok others ∧
      config.nodes.zip (valid.names.zip valid.nodes) =
        first.zip (valid'.names.zip valid'.nodes) ++
          second.zip ((Names.resolveFrom (Names.generatedCount first) second).zip others) := by
  have hid : valid'.networkId = valid.networkId := Except.ok.inj (h'.networkId.symm.trans h.networkId)
  have hvalid := h.nodes
  rw [hnodes] at hvalid
  obtain ⟨valid₁, valid₂, hboth, hfirst, hsecond⟩ := Validation.validateNodes_append hvalid
  have hvalid' := h'.nodes
  rw [Validation.validateNodes_with_nodes, hid] at hvalid'
  obtain rfl : valid'.nodes = valid₁ := Except.ok.inj (hvalid'.symm.trans hfirst)
  have hlength := Validation.length_of_validateNodes hfirst
  refine ⟨hid, valid₂, by simpa using hsecond, ?_⟩
  rw [h.names, h'.names, hboth, hnodes, Names.resolve, Names.resolveFrom_append, Nat.zero_add,
    List.zip_append, List.zip_append]
  · rfl
  · rw [List.length_zip, Names.length_resolveFrom, hlength, Nat.min_self]
  · rw [Names.length_resolveFrom, hlength]

/-- **Creation and addition.** A network that is created with the first of its nodes, and is then given
the others one after the other, grows to the network that is created with all of them. With the same
answers of the host all additions succeed, and the worlds are alike; if the root directory is the same
too, they are equal. -/
theorem alike_of_create_and_add {config : NetworkConfig} {first second : List NodeConfig}
    {root root' : String} {w w₁ : World} (hnodes : config.nodes = first ++ second)
    (hwhole : World.run (supply.host root) (Network.create config).run .blank = (.ok network, w))
    (hfirst : World.run (supply.host root') (Network.create { config with nodes := first }).run .blank =
      (.ok network', w₁)) :
    network.Moved network' ∧ ∃ added w',
      World.run (supply.host root') (second.mapM network'.add).run w₁ = (.ok added, w') ∧
      w.Alike network network' w' ∧ w'.registry.nextNumber = w.registry.nextNumber ∧
      (root' = root → w' = w) := by
  obtain ⟨valid, hvalid, rfl, hrun⟩ := run_create_eq_ok hwhole
  obtain ⟨valid', hvalid', rfl, hrun'⟩ := run_create_eq_ok hfirst
  have haccepted := Validation.accepted_of_validate hvalid
  have haccepted' := Validation.accepted_of_validate hvalid'
  obtain ⟨hid, others, hothers, hzip⟩ := zip_of_validate hnodes haccepted haccepted'
  have hmoved : (Network.ofValid config valid root).Moved
      (.ofValid { config with nodes := first } valid' root') := by
    rw [Network.Moved, Network.ofValid, hid]
    rfl
  have hnumber : w.registry.nextNumber = Names.generatedCount config.nodes := by
    have hnodup : (Names.resolve (config.nodes ++ [])).Nodup := by
      rw [List.append_nil]
      exact haccepted.nodup
    exact (readyFor_of_create hnodup hwhole).2
  have hfirstReady := readyFor_of_create (hnodes ▸ haccepted.nodup) hfirst
  obtain ⟨roll, hready⟩ := hfirstReady.1
  have hnumber₁ : w₁.registry.nextNumber = Names.generatedCount first := hfirstReady.2
  -- the first nodes are started at both places, the others at one only
  rw [hzip, Network.startNodes_append] at hrun
  obtain ⟨_, w₀, hstart, hrest⟩ := World.run_run_bind_eq_ok_iff.mp hrun
  have halike := alike_of_startNodes hmoved hstart hrun'
  have hflags : (Network.ofValid { config with nodes := first } valid' root').flags =
      config.effectiveFlags := rfl
  rw [← hid] at hothers
  rw [← hnumber₁] at hrest
  obtain ⟨added, w', hadd, halike', hnumber'⟩ :=
    run_mapM_add_alike hmoved hflags hothers halike hready hrest
  have heq : w'.registry.nextNumber = w.registry.nextNumber := by
    rw [hnumber', hnumber₁, hnumber, hnodes, Names.generatedCount_append]
  refine ⟨hmoved, added, w', hadd, halike', heq, ?_⟩
  rintro rfl
  have hsame : Network.ofValid { config with nodes := first } valid' root' =
      .ofValid config valid root' := hmoved
  rw [hsame] at halike'
  exact (halike'.eq heq.symm).symm

/-- Answers that grant everything, with a new port each time. -/
def ample : Supply where
  identity _ := .ok anyIdentity
  unusedPort n := some (9650 + .ofNat n)
  makeDir _ := .ok ()
  writeFile _ := .ok ()
  launch _ := .ok ()
  start _ := .ok ()
  stop _ := .ok ()
  connect _ := .ok ()

/-- A beacon, and a node without a name. -/
def pairConfig : NetworkConfig :=
  { soloConfig with nodes := soloConfig.nodes ++ [plainNode ""] }

theorem alike_of_growing_pair :
    ∃ (network network' : Network) (w w₁ : World),
      World.run (ample.host "/net") (Network.create pairConfig).run .blank = (.ok network, w) ∧
      World.run (ample.host "/else") (Network.create soloConfig).run .blank = (.ok network', w₁) ∧
      network.Moved network' ∧ ∃ added w',
        World.run (ample.host "/else") ([plainNode ""].mapM network'.add).run w₁ = (.ok added, w') ∧
        w.Alike network network' w' ∧ w'.registry.nextNumber = w.registry.nextNumber := by
  have hwhole : (World.run (ample.host "/net") (Network.create pairConfig).run .blank).1.isOk := by
    decide +kernel
  have hfirst : (World.run (ample.host "/else") (Network.create soloConfig).run .blank).1.isOk := by
    decide +kernel
  obtain ⟨network, w, hcreate⟩ := World.run_eq_ok_of_isOk hwhole
  obtain ⟨network', w₁, hcreate'⟩ := World.run_eq_ok_of_isOk hfirst
  obtain ⟨hmoved, added, w', hadd, halike, hnumber, -⟩ := alike_of_create_and_add rfl hcreate hcreate'
  exact ⟨network, network', w, w₁, hcreate, hcreate', hmoved, added, w', hadd, halike, hnumber⟩

end Localnet
