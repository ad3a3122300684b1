import Localnet.Proofs.Network.Deeds
import Localnet.Proofs.Network.Ports
import Mathlib.Data.List.Flatten
import Mathlib.Data.List.Pairwise

/-!
# No port for two nodes

A port that is picked is none that the network holds, and none that the node itself has. So two ports can
only be the same if they are declared so. As long as the declared ports of every node that is started are
apart, from each other and from those of the nodes that are registered by then, all ports of the
registered nodes are.
-/

namespace Localnet

open World (anything)
open Network (chosenName)

def NodeSettings.declaredPorts (settings : NodeSettings) : List Port :=
  settings.httpPort.toList ++ settings.stakingPort.toList

theorem NodeSettings.mem_declaredPorts {settings : NodeSettings} {port : Port} :
    port ∈ settings.declaredPorts ↔ settings.httpPort = some port ∨ settings.stakingPort = some port := by
  simp [declaredPorts]

/-- The declared ports are distinct, and no registered node has one of them. -/
def NodeSettings.PortsApart (settings : NodeSettings) (r : Registry) : Prop :=
  settings.declaredPorts.Nodup ∧
    ∀ node ∈ r.nodes.values, ∀ port ∈ settings.declaredPorts, port ∉ node.ports

instance (settings : NodeSettings) (r : Registry) : Decidable (settings.PortsApart r) :=
  -- the declared ports are looked through, and not all the ports that there are
  have (node : Node) : Decidable (∀ port ∈ settings.declaredPorts, port ∉ node.ports) :=
    List.decidableBAll _ _
  inferInstanceAs (Decidable (_ ∧ _))

/-- The ports of some nodes, two for each of them, are distinct. -/
def DistinctPorts (nodes : List Node) : Prop := (nodes.flatMap Node.ports).Nodup

/-- If a call starts a node, its declared ports are apart by then. -/
def Network.CallsApart (network : Network) (call : Call) (w : World) : Prop :=
  ∀ config valid, call = .add config → w.registry.stopped = false → network.checked config = .ok valid →
    chosenName config w.registry ∉ w.registry.nodes.names → valid.settings.PortsApart w.registry

/-- The declared ports of each node are apart by the time that it is started. -/
def Network.StartsApart (network : Network) (oracle : World.Oracle) :
    List (NodeConfig × String × ValidatedNode) → World → Prop
  | [], _ => True
  | (config, name, valid) :: rest, w =>
    let started := World.run oracle (network.startNode config name valid).run w
    valid.settings.PortsApart w.registry ∧
      (started.1.isOk → network.StartsApart oracle rest started.2)

instance decidableStartsApart (network : Network) (oracle : World.Oracle) :
    (entries : List (NodeConfig × String × ValidatedNode)) → (w : World) →
      Decidable (network.StartsApart oracle entries w)
  | [], _ => inferInstanceAs (Decidable True)
  | (config, name, valid) :: rest, w =>
    have := decidableStartsApart network oracle rest
      (World.run oracle (network.startNode config name valid).run w).2
    inferInstanceAs (Decidable (_ ∧ (_ → _)))

def CreatesApart (oracle : World.Oracle) (config : NetworkConfig) : Prop :=
  ∀ valid root, Validation.validate config = .ok valid → oracle [] .makeRoot = .ok root →
    (Network.ofValid config valid root).StartsApart oracle
      (config.nodes.zip (valid.names.zip valid.nodes)) (.rooted root valid.generated)

/-- Some calls later, each made while the ports of the node that it may start were apart. -/
inductive CalledApart (network : Network) (w : World) : World → Prop
  | start : CalledApart network w w
  | call {w₁ w₂ : World} {call : Call} {oracle : World.Oracle} {result : Except NetworkError Answer} :
      CalledApart network w w₁ → network.CallsApart call w₁ →
      network.perform oracle call w₁ = (result, w₂) → CalledApart network w w₂

/-! ### One more node -/

section

variable {roll roll' : List Node} {node : Node} {r : Registry}

theorem DistinctPorts.concat (h : DistinctPorts roll) (hnode : node.ports.Nodup)
    (hdisjoint : ∀ other ∈ roll, other.ports.Disjoint node.ports) : DistinctPorts (roll ++ [node]) := by
  rw [DistinctPorts, List.flatMap_append, List.flatMap_singleton, List.nodup_append']
  refine ⟨h, hnode, fun port hport hnew => ?_⟩
  obtain ⟨other, hother, hmem⟩ := List.mem_flatMap.mp hport
  exact hdisjoint other hother hmem hnew

theorem DistinctPorts.sublist (h : DistinctPorts roll) (hsub : roll'.Sublist roll) :
    DistinctPorts roll' :=
  List.Nodup.sublist (hsub.flatMap Node.ports) h

/-- Of nodes with distinct ports, none shares a port with another one. -/
theorem DistinctPorts.sparing (h : DistinctPorts roll) (hsub : roll' ⊆ roll) : Sparing roll roll' := by
  intro gone hgone hnot node hnode
  have hne : gone ≠ node := fun heq => hnot (heq ▸ hnode)
  have hsymm : Std.Symm (Function.onFun List.Disjoint Node.ports) := 
    ⟨fun _ _ hdisjoint _ hport hport' => hdisjoint hport' hport⟩
  exact (List.nodup_flatMap.mp h).2.forall hgone (hsub hnode) hne

/-- A port that is not taken from the set, or is declared apart, is that of no registered node. -/
theorem PortFrom.unheld {declared : Option Port} {taken : Port → Prop} {events : List Event} {port : Port}
    (h : PortFrom declared taken events port) (hall : r.HoldsAll r.nodes.values)
    (htaken : port ∈ r.ports → taken port)
    (hdeclared : declared = some port → ∀ node ∈ r.nodes.values, port ∉ node.ports) :
    ∀ node ∈ r.nodes.values, port ∉ node.ports := by
  rcases h with hdeclared' | ⟨-, -, hfree⟩
  · exact hdeclared hdeclared'
  · intro node hnode hport
    exact hfree (htaken (hall node hnode port hport))

end

section

variable {network : Network} {config : NodeConfig} {name : String} {valid : ValidatedNode}
  {roll : List Node} {w w' : World}

/-- A port that is picked is not the one beside it: the staking port not the HTTP port, and the HTTP port
not a staking port that is declared. -/
theorem Groundwork.ports_ne {r : Registry} {plan : Plan} {events : List Event}
    (h : Groundwork network valid r plan events) (hdistinct : valid.settings.declaredPorts.Nodup) :
    plan.httpPort ≠ plan.stakingPort := by
  obtain ⟨-, ports, -, -, -, hhttp, hstaking⟩ := h
  intro heq
  rcases hstaking with hstaking | ⟨-, -, hfree⟩
  · rcases hhttp with hhttp | ⟨-, -, hfree⟩
    · rw [NodeSettings.declaredPorts, hhttp, hstaking, heq] at hdistinct
      exact (List.nodup_cons.mp hdistinct).1 (List.mem_singleton_self _)
    · exact hfree (.inr (heq ▸ hstaking))
  · exact hfree (.inr heq.symm)

theorem Groundwork.ports_unheld {r : Registry} {plan : Plan} {events : List Event}
    (h : Groundwork network valid r plan events) (hall : r.HoldsAll r.nodes.values)
    (hapart : valid.settings.PortsApart r) :
    ∀ node ∈ r.nodes.values, plan.httpPort ∉ node.ports ∧ plan.stakingPort ∉ node.ports := by
  obtain ⟨-, ports, -, -, -, hhttp, hstaking⟩ := h
  have hdeclared : ∀ port ∈ valid.settings.declaredPorts, ∀ node ∈ r.nodes.values, port ∉ node.ports :=
    fun port hport node hnode => hapart.2 node hnode port hport
  have hhttp' := hhttp.unheld hall .inl fun heq =>
    hdeclared _ (NodeSettings.mem_declaredPorts.mpr (.inl heq))
  have hstaking' := hstaking.unheld hall .inl fun heq =>
    hdeclared _ (NodeSettings.mem_declaredPorts.mpr (.inr heq))
  exact fun node hnode => ⟨hhttp' node hnode, hstaking' node hnode⟩

/-- The ports of a node that came up are distinct, and no registered node has one of them. -/
theorem Turn.ports_apart {node : Node} (h : Turn network config name valid w (.ok node) w')
    (hall : w.registry.HoldsAll w.registry.nodes.values) (hapart : valid.settings.PortsApart w.registry) :
    node.ports.Nodup ∧ ∀ other ∈ w.registry.nodes.values, other.ports.Disjoint node.ports := by
  cases h with
  | @ready plan events hplan hground =>
      constructor
      · rw [Node.ports, List.nodup_cons, List.mem_singleton]
        exact ⟨hground.ports_ne hapart.1, List.nodup_singleton _⟩
      · intro other hother port hport hnew
        obtain ⟨hhttp, hstaking⟩ := hground.ports_unheld hall hapart other hother
        rcases List.mem_cons.mp hnew with rfl | hnew
        · exact hhttp hport
        · rw [List.mem_singleton.mp hnew] at hport
          exact hstaking hport

structure World.KeptApart (roll : List Node) (w : World) : Prop where
  inOrder : w.InOrder roll
  distinct : DistinctPorts roll
  holdsAll : w.registry.HoldsAll roll

theorem World.KeptApart.values (h : w.KeptApart roll) : DistinctPorts w.registry.nodes.values :=
  (h.inOrder.enrolled.values.flatMap_right Node.ports).nodup_iff.mp h.distinct

theorem ensures_startNode_apart (network : Network) (config : NodeConfig) (name : String)
    (valid : ValidatedNode) (h : w.KeptApart roll) (hfree : name ∉ w.registry.nodes.names)
    (hapart : valid.settings.PortsApart w.registry) :
    w.Ensures anything (fun result w' => w'.KeptApart (roll ++ newcomers result))
      (network.startNode config name valid).run := by
  have hall := (Registry.holdsAll_values_iff h.inOrder.enrolled).mpr h.holdsAll
  have hturn := (network.ensures_turn config name valid w).ends fun _ _ => id
  refine Network.ensures_startNode_of hturn (fun e w' hend => ?_) fun node w' hend => ?_
  · have hinOrder := (StartEnd.failed hend.setUpEnd).inOrder h.inOrder hfree
    rw [newcomers, List.append_nil] at hinOrder ⊢
    refine ⟨hinOrder, h.distinct, ?_⟩
    rw [hend.setUpEnd.registry_eq]
    exact h.holdsAll
  · have hinOrder := (StartEnd.registered hend.setUpEnd).inOrder h.inOrder hfree
    obtain ⟨hnode, hdisjoint⟩ := hend.ports_apart hall hapart
    refine ⟨hinOrder, h.distinct.concat hnode fun other hother => ?_, ?_⟩
    · exact hdisjoint other (h.inOrder.enrolled.values.mem_iff.mp hother)
    · rw [hend.setUpEnd.registry_eq]
      have hregistered : Registry.Step roll w.registry (roll ++ [node]) (w.registry.register node) :=
        .registered w.registry.nextNumber (hend.setUpEnd.name_eq ▸ hfree)
      exact h.holdsAll.step hregistered fun gone hgone hnot =>
        absurd (List.mem_append_left _ hgone) hnot

end

/-! ### A whole life -/

section

variable {network : Network} {roll : List Node} {w w' : World}

/-- A call that adds no node lets some nodes of the roll be, in order. -/
theorem Call.rollAfter_sublist {call : Call} (result : Except NetworkError Answer)
    (hcall : ∀ config, call ≠ .add config) : (call.rollAfter result roll).Sublist roll := by
  unfold Call.rollAfter
  split
  next config node => exact absurd rfl (hcall config)
  next => exact List.filter_sublist
  next => exact List.nil_sublist roll
  next => exact List.Sublist.refl roll

theorem ensures_add_apart (network : Network) (config : NodeConfig) (h : w.KeptApart roll)
    (hapart : network.CallsApart (.add config) w) :
    w.Ensures anything (fun result w' => w'.KeptApart (roll ++ newcomers result))
      (network.add config).run := by
  obtain ⟨nextNumber, hnaming⟩ := Network.afterNaming_eq config w.registry
  have hnamed : (w.named config).KeptApart roll := by
    refine ⟨h.inOrder.named config, h.distinct, ?_⟩
    rw [World.named, hnaming]
    exact h.holdsAll
  refine Network.ensures_add_of (fun _ => ?_) (fun _ _ _ => ?_) (fun _ _ _ _ => ?_) ?_
  · rwa [newcomers, List.append_nil]
  · rwa [newcomers, List.append_nil]
  · rwa [newcomers, List.append_nil]
  · intro valid hrunning hchecked hfree
    refine ensures_startNode_apart network config _ valid hnamed ?_ ?_
    · rwa [World.named, Network.afterNaming_nodes]
    · have hvalid := hapart config valid rfl hrunning hchecked hfree
      rwa [World.named, hnaming]

theorem ensures_call_apart (network : Network) (call : Call) (h : w.KeptApart roll)
    (hapart : network.CallsApart call w) :
    w.Ensures anything (fun result w' => w'.KeptApart (call.rollAfter result roll))
      (call.operation network).run := by
  by_cases hadd : ∃ config, call = .add config
  · obtain ⟨config, rfl⟩ := hadd
    rw [Call.operation, World.ensures_run_map]
    refine (ensures_add_apart network config h hapart).mono (fun _ _ => id) fun result w' hw' => ?_
    cases result with
    | ok node => exact hw'
    | error e =>
        rw [newcomers, List.append_nil] at hw'
        exact hw'
  · have hcall : ∀ config, call ≠ .add config := fun config heq => hadd ⟨config, heq⟩
    refine ((ensures_call network call h.inOrder).and (ensures_call_step network call h.inOrder)).ends ?_
    rintro result w' ⟨hinOrder, hstep⟩
    have hsub : (call.rollAfter result roll).Sublist roll := call.rollAfter_sublist result hcall
    exact ⟨hinOrder, h.distinct.sublist hsub, h.holdsAll.step hstep (h.distinct.sparing hsub.subset)⟩

theorem exists_keptApart_of_startNodes {oracle : World.Oracle}
    {entries : List (NodeConfig × String × ValidatedNode)} {result : Except NetworkError Unit}
    (h : w.KeptApart roll) (hnodup : (roll.map (·.name) ++ entries.map (·.2.1)).Nodup)
    (hapart : network.StartsApart oracle entries w)
    (hrun : World.run oracle (network.startNodes entries).run w = (result, w')) :
    ∃ roll', w'.KeptApart roll' := by
  induction entries generalizing roll w with
  | nil =>
      cases hrun
      exact ⟨roll, h⟩
  | cons entry rest ih =>
      obtain ⟨config, name, valid⟩ := entry
      obtain ⟨hfirst, hrest⟩ := hapart
      have hfree : name ∉ w.registry.nodes.names :=
        h.inOrder.enrolled.not_mem_names hnodup List.mem_cons_self
      have hstart := ((ensures_startNode_apart network config name valid h hfree hfirst).and
        (network.ensures_startNode config name valid w)).run oracle
      rw [Network.startNodes] at hrun
      cases hstarted : World.run oracle (network.startNode config name valid).run w with
      | mk started w₁ =>
          rw [hstarted] at hstart hrest
          obtain ⟨hkept, hend⟩ := hstart
          cases started with
          | error e =>
              rw [World.run_run_bind_of_error hstarted] at hrun
              cases hrun
              exact ⟨_, hkept⟩
          | ok node =>
              rw [World.run_run_bind_of_ok hstarted] at hrun
              refine ih hkept ?_ (hrest rfl) hrun
              cases hend with
              | registered hsetUp =>
                  rwa [newcomers, List.map_append, List.map_singleton, hsetUp.name_eq,
                    List.append_assoc, List.singleton_append]

theorem distinctPorts_of_create {config : NetworkConfig} {oracle : World.Oracle}
    {result : Except NetworkError Network} (hapart : CreatesApart oracle config)
    (h : World.run oracle (Network.create config).run .blank = (result, w)) :
    DistinctPorts w.registry.nodes.values ∧ (result.isOk → ∃ roll, w.KeptApart roll) := by
  rcases ends_of_create h with ⟨hfailed, hblank⟩ | ⟨valid, root, started, hvalid, hroot, hrun, -⟩
  · rw [hblank]
    exact ⟨List.nodup_nil, fun hok => nomatch hfailed.symm.trans hok⟩
  · have haccepted := Validation.accepted_of_validate hvalid
    have hrooted : (World.rooted root valid.generated).KeptApart [] :=
      ⟨.rooted root valid.generated, List.nodup_nil, nofun⟩
    have hnodup : (config.nodes.zip (valid.names.zip valid.nodes)).map (·.2.1) |>.Nodup := by
      rw [haccepted.zip_names]
      exact haccepted.nodup
    obtain ⟨roll, hkept⟩ :=
      exists_keptApart_of_startNodes hrooted hnodup (hapart valid root hvalid hroot) hrun
    exact ⟨hkept.values, fun _ => ⟨roll, hkept⟩⟩

theorem CalledApart.exists_keptApart (h : CalledApart network w w') (hw : w.KeptApart roll) :
    ∃ roll', w'.KeptApart roll' := by
  induction h with
  | start => exact ⟨roll, hw⟩
  | @call w₁ w₂ call oracle result _ hapart hperform ih =>
      obtain ⟨roll₁, hkept⟩ := ih
      have hrun := (ensures_call_apart network call hkept hapart).run oracle
      rw [show World.run oracle (call.operation network).run w₁ = _ from hperform] at hrun
      exact ⟨_, hrun⟩

/-- **Distinct ports.** The declared ports of each node are apart by the time that it is started, from
each other and from those of the nodes that are registered. Then all ports of the registered nodes are
distinct, after the creation, also if it fails half-way, and after all calls that are made of the network,
whatever the host offers. -/
theorem ports_are_distinct {config : NetworkConfig} {oracle : World.Oracle}
    {result : Except NetworkError Network} (hapart : CreatesApart oracle config)
    (hcreate : World.run oracle (Network.create config).run .blank = (result, w)) :
    DistinctPorts w.registry.nodes.values ∧
      ∀ network, result = .ok network → ∀ w', CalledApart network w w' →
        DistinctPorts w'.registry.nodes.values := by
  obtain ⟨hdistinct, hkept⟩ := distinctPorts_of_create hapart hcreate
  refine ⟨hdistinct, ?_⟩
  rintro network rfl w' hcalls
  obtain ⟨roll, hw⟩ := hkept rfl
  obtain ⟨roll', hw'⟩ := hcalls.exists_keptApart hw
  exact hw'.values

end

/-- A node that declares one port, and one that declares both. -/
def declaringConfig : NetworkConfig :=
  { soloConfig with
    nodes := [
      { plainNode "a" with
        isBeacon := true
        configDocument := some "\x7b\"staking-port\":9660\x7d" },
      { plainNode "b" with
        configDocument := some "\x7b\"http-port\":9650,\"staking-port\":9651\x7d" }] }

/-- A node that declares a port of another one. -/
def heir : NodeConfig := { plainNode "c" with configDocument := some "\x7b\"http-port\":9650\x7d" }

/-- A host that begins with offers of a port that is declared. -/
def repeatingHost : World.Oracle := fun history =>
  willing (if history.length < 4 then 9660 else 9650 + .ofNat history.length)

theorem ports_are_distinct_with_heir :
    ∃ (network : Network) (w w' : World), CreatesApart repeatingHost declaringConfig ∧
      World.run repeatingHost (Network.create declaringConfig).run .blank = (.ok network, w) ∧
      CalledApart network w w' ∧ w'.registry.nodes.names = ["a", "c"] ∧
      DistinctPorts w'.registry.nodes.values := by
  have hstarts : (Validation.validate declaringConfig).toOption.all fun valid =>
      (Network.ofValid declaringConfig valid "/net").StartsApart repeatingHost
        (declaringConfig.nodes.zip (valid.names.zip valid.nodes)) (.rooted "/net" valid.generated) := by
    decide +kernel
  have hcreates : CreatesApart repeatingHost declaringConfig := by
    intro valid root hvalid hroot
    obtain rfl : "/net" = root := Except.ok.inj hroot
    rw [hvalid] at hstarts
    exact of_decide_eq_true hstarts
  have hends :
      (match World.run repeatingHost (Network.create declaringConfig).run .blank with
        | (.ok network, w) =>
          let w₁ := (network.perform repeatingHost (.remove "b") w).2
          let w₂ := (network.perform repeatingHost (.add heir) w₁).2
          w₂.registry.nodes.names = ["a", "c"] &&
            (network.checked heir).toOption.all fun valid => valid.settings.PortsApart w₁.registry
        | (.error _, _) => false) = true := by
    decide +kernel
  split at hends
  next network w hcreate =>
    cases hremove : network.perform repeatingHost (.remove "b") w with
    | mk removed w₁ =>
        cases hadd : network.perform repeatingHost (.add heir) w₁ with
        | mk added w₂ =>
            simp only [hremove, hadd, Bool.and_eq_true, decide_eq_true_eq] at hends
            obtain ⟨hnames, hapart⟩ := hends
            have hremoval : network.CallsApart (.remove "b") w := by
              rintro config valid ⟨⟩
            have haddition : network.CallsApart (.add heir) w₁ := by
              rintro config valid ⟨⟩ - hchecked -
              rw [hchecked] at hapart
              exact of_decide_eq_true hapart
            have hcalls : CalledApart network w w₂ :=
              .call (.call .start hremoval hremove) haddition hadd
            exact ⟨network, w, w₂, hcreates, hcreate, hcalls, hnames,
              (ports_are_distinct hcreates hcreate).2 network rfl w₂ hcalls⟩
  next => cases hends

end Localnet
