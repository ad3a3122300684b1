import Localnet.Proofs.Network.Steps

/-!
# The ports that are held

A network keeps the ports of its nodes in a set, so that it picks none of them for another node. Nothing
in the set is out of date. It is complete as long as no node is taken out that shares a port with one
that stays: a port that two nodes declare is in the set once, and it is released with the first of them.
-/

namespace Localnet

def Node.ports (node : Node) : List Port := [node.endpoints.httpPort, node.endpoints.stakingPort]

namespace Registry

variable {ports : List Port} {port other : Port} {r : Registry} {node : Node}

theorem mem_holdPort : other ∈ holdPort ports port ↔ other = port ∨ other ∈ ports := by
  unfold holdPort
  split
  next hmem =>
    refine ⟨.inr, ?_⟩
    rintro (rfl | h)
    · exact hmem
    · exact h
  next => exact List.mem_cons

theorem mem_releasePort : other ∈ releasePort ports port ↔ other ∈ ports ∧ other ≠ port := by
  simp [releasePort]

theorem mem_ports_register :
    port ∈ (r.register node).ports ↔ port ∈ r.ports ∨ port ∈ node.ports := by
  simp only [register, mem_holdPort, Node.ports, List.mem_cons, List.not_mem_nil, or_false]
  tauto

theorem mem_ports_unregister :
    port ∈ (r.unregister node).ports ↔ port ∈ r.ports ∧ port ∉ node.ports := by
  simp only [unregister, mem_releasePort, Node.ports, List.mem_cons, List.not_mem_nil, or_false]
  tauto

/-- Every port in the set is one of a node on the roll. -/
def HoldsOnly (roll : List Node) (r : Registry) : Prop :=
  ∀ port ∈ r.ports, ∃ node ∈ roll, port ∈ node.ports

/-- Every port of a node on the roll is in the set. -/
def HoldsAll (roll : List Node) (r : Registry) : Prop :=
  ∀ node ∈ roll, ∀ port ∈ node.ports, port ∈ r.ports

variable {roll roll' : List Node} {r' : Registry}

theorem holdsAll_values_iff (henrolled : Enrolled roll r) :
    HoldsAll r.nodes.values r ↔ HoldsAll roll r :=
  forall_congr' fun _ => imp_congr_left henrolled.values.mem_iff.symm

theorem HoldsOnly.step (henrolled : Enrolled roll r) (h : HoldsOnly roll r)
    (hstep : Step roll r roll' r') : HoldsOnly roll' r' := by
  intro port hport
  cases hstep with
  | kept _ => exact h port hport
  | registered _ _ =>
      rcases mem_ports_register.mp hport with hport | hport
      · obtain ⟨node, hnode, hmem⟩ := h port hport
        exact ⟨node, List.mem_append_left _ hnode, hmem⟩
      · exact ⟨_, List.mem_append_right _ (List.mem_singleton_self _), hport⟩
  | @unregistered removed hremoved =>
      obtain ⟨hport, hreleased⟩ := mem_ports_unregister.mp hport
      obtain ⟨node, hnode, hmem⟩ := h port hport
      -- the ports of the removed node were released, so this is the port of another one
      have hne : node.name ≠ removed.name := by
        intro hsame
        obtain rfl := List.inj_on_of_nodup_map henrolled.nodup_names hnode hremoved hsame
        exact hreleased hmem
      exact ⟨node, List.mem_filter.mpr ⟨hnode, by simpa using hne⟩, hmem⟩
  | stopped => cases hport

/-- Only a removal can make the set incomplete, and only if the node shares a port. -/
theorem HoldsAll.step (h : HoldsAll roll r) (hstep : Step roll r roll' r')
    (happart : ∀ gone ∈ roll, gone ∉ roll' → ∀ node ∈ roll', gone.ports.Disjoint node.ports) :
    HoldsAll roll' r' := by
  intro node hnode port hport
  cases hstep with
  | kept _ => exact h node hnode port hport
  | registered _ _ =>
      refine mem_ports_register.mpr ?_
      rcases List.mem_append.mp hnode with hnode | hnode
      · exact .inl (h node hnode port hport)
      · obtain rfl := List.mem_singleton.mp hnode
        exact .inr hport
  | @unregistered removed hremoved =>
      have hgone : removed ∉ roll.filter (·.name ≠ removed.name) := by simp
      refine mem_ports_unregister.mpr ⟨h node (List.mem_of_mem_filter hnode) port hport, ?_⟩
      exact fun hboth => happart removed hremoved hgone node hnode hboth hport
  | stopped => cases hnode

end Registry

variable {network : Network} {roll : List Node} {w : World}

/-- Nothing in the set of ports is out of date, whatever was called. -/
theorem holdsOnly_of_reached (h : Reached network w) :
    w.registry.HoldsOnly w.registry.nodes.values := by
  obtain ⟨roll, hroll, hports⟩ := h.of_step (fun _ => nofun) fun henrolled h hstep =>
    Registry.HoldsOnly.step henrolled h hstep
  intro port hport
  obtain ⟨node, hnode, hmem⟩ := hports port hport
  exact ⟨node, hroll.enrolled.values.mem_iff.mp hnode, hmem⟩

/-- No node that a call takes out shares a port with one that stays. -/
def Sparing (roll roll' : List Node) : Prop :=
  ∀ gone ∈ roll, gone ∉ roll' → ∀ node ∈ roll', gone.ports.Disjoint node.ports

/-- The life of a network in which every removal is sparing. -/
inductive SparingLife : Network → List Node → World → Prop
  | created {config : NetworkConfig} {oracle : World.Oracle} {network : Network} {w : World} :
      World.run oracle (Network.create config).run .blank = (.ok network, w) →
      SparingLife network ((Names.resolve config.nodes).filterMap w.registry.nodes.get?) w
  | called {network : Network} {roll : List Node} {w w' : World} {call : Call}
      {oracle : World.Oracle} {result : Except NetworkError Answer} :
      SparingLife network roll w →
      World.run oracle (call.operation network).run w = (result, w') →
      Sparing roll (call.rollAfter result roll) →
      SparingLife network (call.rollAfter result roll) w'

theorem holdsAll_of_create {config : NetworkConfig} {oracle : World.Oracle}
    (h : World.run oracle (Network.create config).run .blank = (.ok network, w)) :
    w.registry.HoldsAll w.registry.nodes.values := by
  have hregister : ∀ {roll r node}, Enrolled roll r → Registry.HoldsAll roll r →
      node.name ∉ r.nodes.names → Registry.HoldsAll (roll ++ [node]) (r.register node) := by
    intro roll r node _ hall hfree
    refine hall.step (.registered r.nextNumber hfree) fun gone hgone hnot => ?_
    exact absurd (List.mem_append_left _ hgone) hnot
  have hcreated := (ensures_create_register hregister (fun _ => nofun) config).run oracle
  rw [h] at hcreated
  obtain ⟨roll, hroll, hall⟩ := hcreated rfl
  exact (Registry.holdsAll_values_iff hroll.enrolled).mpr hall

theorem SparingLife.holdsAll (h : SparingLife network roll w) :
    w.InOrder roll ∧ w.registry.HoldsAll roll := by
  induction h with
  | created hcreate =>
      have hroll := inOrder_of_create hcreate
      exact ⟨hroll, (Registry.holdsAll_values_iff hroll.enrolled).mp (holdsAll_of_create hcreate)⟩
  | @called network roll w w' call oracle result _ hcall hsparing ih =>
      obtain ⟨hroll, hall⟩ := ih
      have hrun := ((ensures_call network call hroll).and
        (ensures_call_step network call hroll)).run oracle
      rw [hcall] at hrun
      exact ⟨hrun.1, hall.step hrun.2 hsparing⟩

def sharedConfig : NetworkConfig :=
  { NetworkConfig.empty with
    genesis := "\x7b\"networkID\":7\x7d"
    nodes := ["a", "b"].map fun name =>
      { plainNode name with
        isBeacon := true
        configDocument := some "\x7b\"http-port\":9650,\"staking-port\":9651\x7d" } }

def sharedRemoval : List Move :=
  [.call (.remove "b"), .handOver fun _ => ⟨none, .ok false⟩, .reply (willing 0), .reply (willing 0)]

/-- Another node is added, and the host offers the same ports once more. -/
def laterAddition : List Move :=
  [.call (.add (plainNode "c")), .handOver fun _ => ⟨none, .ok false⟩, .reply (willing 9650),
    .reply (willing 9650)] ++
  List.replicate 10 (.reply (willing 9651))

def hasUnheldPort (w : World) : Bool :=
  w.registry.nodes.values.any fun node => node.ports.any (· ∉ w.registry.ports)

def shareHttpPort (w : World) (first second : String) : Bool :=
  match w.registry.nodes.get? first, w.registry.nodes.get? second with
  | some node, some other => node.endpoints.httpPort == other.endpoints.httpPort
  | _, _ => false

/-- After the removal the other node's ports are not in the set, and the node that is added gets
them. -/
theorem ports_of_sharedRemoval : ∃ (network : Network) (w : World) (m m' : Machine),
    World.run willingHost (Network.create sharedConfig).run .blank = (.ok network, w) ∧
    (Machine.start network 500 0 w).run sharedRemoval = some m ∧ m.holder = none ∧
    hasUnheldPort m.world ∧ m.run laterAddition = some m' ∧ m'.holder = none ∧
    shareHttpPort m'.world "a" "c" := by
  have hends :
      (match World.run willingHost (Network.create sharedConfig).run .blank with
        | (.ok network, w) =>
          ((Machine.start network 500 0 w).run sharedRemoval).any fun m =>
            m.holder.isNone && hasUnheldPort m.world &&
              (m.run laterAddition).any fun m' =>
                m'.holder.isNone && shareHttpPort m'.world "a" "c"
        | (.error _, _) => false) = true := by
    decide +kernel
  split at hends
  next network w hcreate =>
    obtain ⟨m, hremoval, hm⟩ := (Option.any_eq_true _ _).mp hends
    simp only [Bool.and_eq_true] at hm
    obtain ⟨⟨hidle, hunheld⟩, hlater⟩ := hm
    obtain ⟨m', haddition, hm'⟩ := (Option.any_eq_true _ _).mp hlater
    rw [Bool.and_eq_true] at hm'
    exact ⟨network, w, m, m', hcreate, hremoval, Option.isNone_iff_eq_none.mp hidle, hunheld,
      haddition, Option.isNone_iff_eq_none.mp hm'.1, hm'.2⟩
  next => cases hends

end Localnet
