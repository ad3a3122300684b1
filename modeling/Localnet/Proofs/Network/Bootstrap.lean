import Localnet.Proofs.Flags
import Localnet.Proofs.Network.Life

/-!
# Beacons and bootstrapping

The beacons of a network are the registered nodes that are beacons, in the order in which they were
registered last. Every node is launched with the ids and the addresses of all of them, whatever flags it
brings.
-/

namespace Localnet

def beaconsOn (roll : List Node) : List Node := roll.filter (·.isBeacon)

/-- A registry whose beacons are those among the nodes on a roll, which it has registered. -/
structure BeaconsKept (roll : List Node) (r : Registry) : Prop where
  registered : roll.Perm r.nodes.values
  nodup : (roll.map (·.name)).Nodup
  beacons : r.beacons =
    (beaconsOn roll).map fun node => ⟨node.name, node.nodeId, node.endpoints.stakingPort⟩

def joinedIds (beacons : List Node) : String := ",".intercalate (beacons.map (toString ·.nodeId))

def joinedAddresses (beacons : List Node) : String :=
  ",".intercalate (beacons.map ("127.0.0.1:" ++ toString ·.endpoints.stakingPort.toNat))

/-- Arguments that tell some beacons: at each place, the id and the address are of one node. They are one
argument for each flag, and only one flag is for the ids and one for the addresses. -/
structure BootstrapFrom (beacons : List Node) (args : List String) : Prop where
  ids : "--bootstrap-ids=" ++ joinedIds beacons ∈ args
  ips : "--bootstrap-ips=" ++ joinedAddresses beacons ∈ args
  flags : ∃ flags : Flags, flags.RenderAs args ∧
    flags.get? "bootstrap-ids" = some (.text (joinedIds beacons)) ∧
    flags.get? "bootstrap-ips" = some (.text (joinedAddresses beacons))

/-- A launch, if the request is one, is of a node that is not registered, and is to bootstrap from all
beacons that are: the ones on the roll. -/
def LaunchesWithBeacons (roll : List Node) (w : World) (request : HostRequest) : Prop :=
  ∀ config args, request = .launch config args →
    BeaconsKept roll w.registry ∧ config.name ∉ roll.map (·.name) ∧
      BootstrapFrom (beaconsOn roll) args

theorem BootstrapFrom.of_flags {beacons : List Node} {args : List String} {flags : Flags}
    (hargs : flags.RenderAs args)
    (hids : flags.get? "bootstrap-ids" = some (.text (joinedIds beacons)))
    (hips : flags.get? "bootstrap-ips" = some (.text (joinedAddresses beacons))) :
    BootstrapFrom beacons args where
  ids := hargs.mem_of_get? hids
  ips := hargs.mem_of_get? hips
  flags := ⟨flags, hargs, hids, hips⟩

theorem Enrolled.beaconsKept {roll : List Node} {r : Registry} (h : Enrolled roll r) :
    BeaconsKept roll r where
  registered := h.values
  nodup := h.nodup_names
  beacons := by
    rw [h.beacons, beaconsOn, ← List.filterMap_eq_map, List.filterMap_filter]
    rfl

/-- The last two things that a network decides about a node's flags are where it bootstraps from. -/
theorem Network.launchFlags_bootstrap (network : Network) (config : NodeConfig)
    (endpoints : Endpoints) (files : NodeFiles) (bootstrap : List Beacon) :
    ∃ others : Flags, network.launchFlags config endpoints files bootstrap =
      (others.insert "bootstrap-ips" (.text (",".intercalate (bootstrap.map Beacon.address)))).insert
        "bootstrap-ids" (.text (",".intercalate (bootstrap.map (toString ·.nodeId)))) := by
  rw [Network.launchFlags, Network.resolvedFlags, List.foldl_append]
  exact ⟨_, rfl⟩

theorem Network.get?_launchFlags_ids (network : Network) (config : NodeConfig)
    (endpoints : Endpoints) (files : NodeFiles) (bootstrap : List Beacon) :
    (network.launchFlags config endpoints files bootstrap).get? "bootstrap-ids" =
      some (.text (",".intercalate (bootstrap.map (toString ·.nodeId)))) := by
  obtain ⟨others, heq⟩ := network.launchFlags_bootstrap config endpoints files bootstrap
  rw [heq, Table.get?_insert_self]

theorem Network.get?_launchFlags_ips (network : Network) (config : NodeConfig)
    (endpoints : Endpoints) (files : NodeFiles) (bootstrap : List Beacon) :
    (network.launchFlags config endpoints files bootstrap).get? "bootstrap-ips" =
      some (.text (",".intercalate (bootstrap.map Beacon.address))) := by
  obtain ⟨others, heq⟩ := network.launchFlags_bootstrap config endpoints files bootstrap
  rw [heq, Table.get?_insert_of_ne _ _ (by decide), Table.get?_insert_self]

theorem BeaconsKept.bootstrapFrom {roll : List Node} {r : Registry} (h : BeaconsKept roll r)
    (network : Network) (plan : Plan) :
    BootstrapFrom (beaconsOn roll) (plan.argumentsIn network r.beacons) := by
  refine .of_flags (Flags.renderAs_arguments _) ?_ ?_
  · rw [Network.get?_launchFlags_ids, h.beacons, List.map_map]
    rfl
  · rw [Network.get?_launchFlags_ips, h.beacons, List.map_map]
    rfl

/-- No beacon has a name that is free. -/
theorem Enrolled.filter_beacons {roll : List Node} {r : Registry} {name : String}
    (h : Enrolled roll r) (hfree : name ∉ r.nodes.names) :
    r.beacons.filter (·.name ≠ name) = r.beacons := by
  refine List.filter_eq_self.mpr fun beacon hbeacon => ?_
  rw [h.beaconsKept.beacons] at hbeacon
  obtain ⟨node, hnode, rfl⟩ := List.mem_map.mp hbeacon
  have hmem : node.name ∈ r.nodes.names :=
    h.names_perm.mem_iff.mp (List.mem_map_of_mem (List.mem_filter.mp hnode).1)
  have hne : node.name ≠ name := by
    rintro rfl
    exact hfree hmem
  simpa using hne

theorem Launches.withBeacons {roll : List Node} {w : World} {request : HostRequest}
    (h : Launches roll w request) : LaunchesWithBeacons roll w request := by
  intro config args hrequest
  obtain ⟨henrolled, network, plan, hfree, rfl, rfl⟩ := h config args hrequest
  refine ⟨henrolled.beaconsKept, ?_, ?_⟩
  · rw [henrolled.names_perm.mem_iff]
    exact hfree
  · rw [henrolled.filter_beacons hfree]
    exact henrolled.beaconsKept.bootstrapFrom network plan

/-- At creation, the nodes on the roll are those of the configuration that are registered by then. -/
theorem LaunchesInTurn.withBeacons {names : List String} {w : World} {request : HostRequest}
    (h : LaunchesInTurn names w request) :
    LaunchesWithBeacons (names.filterMap w.registry.nodes.get?) w request := by
  obtain ⟨hnodup, roll, hinitial, hlaunches⟩ := h
  intro config args hrequest
  have henrolled := (hlaunches config args hrequest).1
  rw [henrolled.filterMap_get? hinitial hnodup]
  exact hlaunches.withBeacons config args hrequest

/-- **Bootstrapping.** In every world of a network's life the beacons are those among the registered
nodes, in the order of the roll; and whatever is launched, by a call or at creation, bootstraps from all
of them. -/
theorem bootstrap_from_registered_beacons :
    (∀ (network : Network) (roll : List Node) (w : World), Life network roll w →
      BeaconsKept roll w.registry ∧
      ∀ (call : Call) (oracle : World.Oracle),
        ∀ x ∈ World.asked oracle (call.operation network).run w, LaunchesWithBeacons roll x.1 x.2) ∧
    ∀ (config : NetworkConfig) (oracle : World.Oracle),
      ∀ x ∈ World.asked oracle (Network.create config).run .blank,
        LaunchesWithBeacons ((Names.resolve config.nodes).filterMap x.1.registry.nodes.get?) x.1 x.2 := by
  refine ⟨fun network roll w hlife => ?_, fun config oracle x hx => ?_⟩
  · have hw := hlife.inOrder
    refine ⟨hw.enrolled.beaconsKept, fun call oracle x hx => ?_⟩
    exact ((ensures_call network call hw).asked oracle x hx).withBeacons
  · exact ((ensures_create config).asked oracle x hx).withBeacons

/-- A node that joins a beacon is launched. -/
theorem bootstrap_of_joining_node :
    ∃ (network : Network) (roll : List Node) (w : World) (x : World × HostRequest),
      Life network roll w ∧ (∃ config args, x.2 = .launch config args) ∧
      x ∈ World.asked willingHost ((Call.add (plainNode "b")).operation network).run w ∧
      BeaconsKept roll w.registry ∧ LaunchesWithBeacons roll x.1 x.2 := by
  have hends :
      (match World.run willingHost (Network.create soloConfig).run .blank with
        | (.ok network, w) =>
          (World.asked willingHost ((Call.add (plainNode "b")).operation network).run w).any
            fun x => match x.2 with
              | .launch _ _ => true
              | _ => false
        | (.error _, _) => false) = true := by
    decide +kernel
  split at hends
  next network w hcreate =>
    obtain ⟨x, hx, hlaunch⟩ := List.any_eq_true.mp hends
    have hlife := Life.created hcreate
    have hboth := bootstrap_from_registered_beacons.1 network _ w hlife
    refine ⟨network, _, w, x, hlife, ?_, hx, hboth.1, hboth.2 _ willingHost x hx⟩
    split at hlaunch
    next config args heq => exact ⟨config, args, heq⟩
    next => cases hlaunch
  next => cases hends

end Localnet
