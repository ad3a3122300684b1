import Localnet.Proofs.Network.Roll
import Localnet.Proofs.Network.Serial
import Localnet.Proofs.Validation

/-!
# The life of a network

A network is created, and then called over and over. Its life carries a roll that is made from the
results of the calls alone, and in every world of its life the registry and the books are in order for
that roll.
-/

namespace Localnet

/-- A world whose registry and books are in order for the nodes on a roll. -/
structure World.InOrder (roll : List Node) (w : World) : Prop where
  enrolled : Enrolled roll w.registry
  books : Books roll w.history

/-- The roll after a call, by what came of it. -/
def Call.rollAfter : Call → Except NetworkError Answer → List Node → List Node
  | .add _, .ok (.node node), roll => roll ++ [node]
  | .remove name, .ok _, roll => roll.filter (·.name ≠ name)
  | .stop, .ok _, _ => []
  | _, _, roll => roll

/-- A launch, if the request is one, is by a plan under a free name, for the beacons on a roll. -/
def Launches (roll : List Node) (w : World) (request : HostRequest) : Prop :=
  ∀ config args, request = .launch config args →
    Enrolled roll w.registry ∧ ∃ (network : Network) (plan : Plan),
      plan.name ∉ w.registry.nodes.names ∧ config = plan.configIn network ∧
      args = plan.argumentsIn network (w.registry.beacons.filter (·.name ≠ plan.name))

theorem launches_of_isShutDown {roll : List Node} {w : World} {request : HostRequest}
    (h : request.isShutDown) : Launches roll w request := by
  rintro config args rfl
  cases h

section

variable {network : Network} {config : NodeConfig} {roll : List Node} {w w' : World}

theorem SetUpEnd.registry_eq {isPlan : Plan → Prop} {result : Except Failure Node}
    (h : SetUpEnd network isPlan w result w') : w'.registry = w.registry := by
  cases h with
  | unprepared hw => exact hw.1
  | unlaunched hw _ => exact hw.1
  | unstarted hw _ => exact hw.1
  | unconnected hw _ => exact hw.1
  | ready hw _ => exact hw.1

theorem SetUpEnd.name_eq {name : String} {valid : ValidatedNode} {node : Node}
    (h : SetUpEnd network (Plan.IsFor · config name valid) w (.ok node) w') : node.name = name := by
  cases h with
  | ready _ hplan => exact hplan.name

theorem StartEnd.inOrder {name : String} {valid : ValidatedNode}
    {result : Except NetworkError Node} (h : w.InOrder roll) (hfree : name ∉ w.registry.nodes.names)
    (hend : StartEnd network (Plan.IsFor · config name valid) name w result w') :
    w'.InOrder (roll ++ newcomers result) := by
  cases hend with
  | failed hend =>
      rw [newcomers, List.append_nil]
      refine ⟨?_, h.books.setUp hend⟩
      rw [hend.registry_eq]
      exact h.enrolled
  | @registered node w' hend =>
      refine ⟨?_, (h.books.setUp hend).perm (List.perm_append_singleton node roll).symm⟩
      rw [hend.registry_eq]
      exact h.enrolled.register (hend.name_eq ▸ hfree)

theorem World.InOrder.named (h : w.InOrder roll) (config : NodeConfig) :
    (w.named config).InOrder roll where
  enrolled := h.enrolled.of_eq (Network.afterNaming_nodes _ _) (Network.afterNaming_beacons _ _)
  books := h.books

theorem AddEnd.inOrder {result : Except NetworkError Node} (h : w.InOrder roll)
    (hend : AddEnd network config w result w') : w'.InOrder (roll ++ newcomers result) := by
  cases hend with
  | stopped _ => simpa [newcomers] using h
  | invalid _ _ => simpa [newcomers] using h
  | duplicate _ _ _ => simpa [newcomers] using h.named config
  | started _ _ hfree hend =>
      refine hend.inOrder (h.named config) ?_
      exact (Network.afterNaming_nodes config w.registry).symm ▸ hfree

theorem RemoveEnd.inOrder {name : String} {result : Except NetworkError Unit} (h : w.InOrder roll)
    (hend : RemoveEnd name w result w') :
    w'.InOrder (if result.isOk then roll.filter (·.name ≠ name) else roll) := by
  cases hend with
  | stopped _ => exact h
  | notFound _ _ => exact h
  | @removed node reply _ hget =>
      obtain rfl := h.enrolled.name_of_get? hget
      refine ⟨h.enrolled.unregister node, ?_⟩
      exact (h.books.perm (h.enrolled.perm_cons_filter hget)).shutDown

theorem StopEnd.inOrder {result : Except NetworkError Unit} (h : w.InOrder roll)
    (hend : StopEnd w result w') : w'.InOrder (if result.isOk then [] else roll) := by
  cases hend with
  | stopped _ => exact h
  | done _ hshutDowns =>
      refine ⟨(Enrolled.empty w.registry.nextNumber).of_eq rfl rfl, ?_⟩
      exact (h.books.perm h.enrolled.values).shutDowns hshutDowns

end

/-- Every call keeps a network in order, for the roll that its result calls for. -/
theorem ensures_call (network : Network) (call : Call) {roll : List Node} {w : World}
    (h : w.InOrder roll) :
    World.Ensures (Launches roll) (fun result w' => w'.InOrder (call.rollAfter result roll))
      (call.operation network).run w := by
  have hshutDown : ∀ w' request, ShutDownAsks w w' request → Launches roll w' request :=
    fun _ _ h => launches_of_isShutDown h.1
  cases call with
  | add config =>
      rw [Call.operation, World.ensures_run_map]
      refine (network.ensures_add config w).mono ?_ fun result w' hend => ?_
      · rintro w' request ⟨hregistry, hlaunch⟩ config' args hrequest
        refine ⟨?_, network, hlaunch config' args hrequest⟩
        rw [hregistry]
        exact (h.named config).enrolled
      · have hw' := hend.inOrder h
        cases result with
        | ok node => exact hw'
        | error e => exact List.append_nil roll ▸ hw'
  | remove name =>
      rw [Call.operation, World.ensures_run_map]
      refine (Network.ensures_remove name w).mono hshutDown fun result w' hend => ?_
      have hw' := hend.inOrder h
      cases result <;> exact hw'
  | get name =>
      rw [Call.operation, World.ensures_run_map]
      exact Network.ensures_find (fun _ => h) (fun _ _ => h) fun _ _ _ => h
  | names =>
      rw [Call.operation, World.ensures_run_map]
      unfold Network.nodeNames
      rw [World.ensures_run_bind]
      exact Network.ensures_running (fun _ => h) fun _ => h
  | all =>
      rw [Call.operation, World.ensures_run_map]
      unfold Network.allNodes
      rw [World.ensures_run_bind]
      exact Network.ensures_running (fun _ => h) fun _ => h
  | stop =>
      rw [Call.operation, World.ensures_run_map]
      refine (Network.ensures_stop w).mono hshutDown fun result w' hend => ?_
      have hw' := hend.inOrder h
      cases result <;> exact hw'

/-! ### Creation -/

/-- Launches in the order of some distinct names: the nodes on the roll have the first of them. -/
def LaunchesInTurn (names : List String) (w : World) (request : HostRequest) : Prop :=
  names.Nodup ∧ ∃ roll : List Node, roll.map (·.name) <+: names ∧ Launches roll w request

/-- What is to be shown of starts one after the other: that each start takes `I` on to its node. -/
theorem ensures_startNodes_of {network : Network} {P : World → HostRequest → Prop}
    {Q : Except NetworkError Unit → World → Prop} (I : List Node → World → Prop) {names : List String}
    {entries : List (NodeConfig × String × ValidatedNode)} (hnodup : names.Nodup)
    (hstart : ∀ {roll : List Node} {w : World} {config name valid}, (config, name, valid) ∈ entries →
      w.InOrder roll → I roll w → roll.map (·.name) ++ [name] <+: names → name ∉ w.registry.nodes.names →
      w.Ensures P
        (fun result w' => (∀ e, result = .error e → Q (.error e) w') ∧
          ∀ node, result = .ok node → I (roll ++ [node]) w')
        (network.startNode config name valid).run)
    (hdone : ∀ {roll : List Node} {w : World}, roll.map (·.name) = names → w.InOrder roll → I roll w →
      Q (.ok ()) w)
    {roll : List Node} {w : World} (h : w.InOrder roll) (hI : I roll w)
    (hnames : roll.map (·.name) ++ entries.map (·.2.1) = names) :
    w.Ensures P Q (network.startNodes entries).run := by
  induction entries generalizing roll w with
  | nil => exact hdone (by simpa using hnames) h hI
  | cons entry rest ih =>
      obtain ⟨config, name, valid⟩ := entry
      have hfree : name ∉ w.registry.nodes.names :=
        h.enrolled.not_mem_names (hnames ▸ hnodup) List.mem_cons_self
      have hassoc : roll.map (·.name) ++ [name] ++ rest.map (·.2.1) = names := by
        simpa using hnames
      rw [Network.startNodes, World.ensures_run_bind]
      refine ((hstart List.mem_cons_self h hI ⟨_, hassoc⟩ hfree).and
        (network.ensures_startNode config name valid w)).mono (fun _ _ h => h.1) ?_
      rintro result w' ⟨⟨hfailed, hready⟩, hend⟩
      have hw' := hend.inOrder h hfree
      cases hend with
      | failed _ => exact hfailed _ rfl
      | @registered node _ hsetUp =>
          refine ih (fun hmem => hstart (List.mem_cons_of_mem _ hmem)) hw' (hready node rfl) ?_
          simpa [newcomers, hsetUp.name_eq] using hassoc

theorem ensures_startNodes (network : Network) {names : List String} (hnodup : names.Nodup)
    (nodes : List (NodeConfig × String × ValidatedNode)) {roll : List Node} {w : World}
    (h : w.InOrder roll) (hnames : roll.map (·.name) ++ nodes.map (·.2.1) = names) :
    World.Ensures (LaunchesInTurn names)
      (fun result w' => result.isOk → ∃ roll' : List Node, roll'.map (·.name) = names ∧ w'.InOrder roll')
      (network.startNodes nodes).run w := by
  refine ensures_startNodes_of (fun _ _ => True) hnodup ?_ (fun hnames h _ _ => ⟨_, hnames, h⟩) h
    trivial hnames
  intro roll w config name valid _ h _ hprefix hfree
  refine (network.ensures_startNode config name valid w).mono ?_
    fun _ _ _ => ⟨fun _ _ => nofun, fun _ _ => trivial⟩
  rintro w' request ⟨hregistry, hlaunch⟩
  refine ⟨hnodup, roll, (List.prefix_append _ _).trans hprefix, fun config' args hrequest => ?_⟩
  obtain ⟨plan, hplan, hconfig, hargs⟩ := hlaunch config' args hrequest
  rw [hregistry]
  exact ⟨h.enrolled, network, plan, hplan.name ▸ hfree, hconfig, hargs⟩

/-- A world in which nothing has happened. -/
def World.blank : World := ⟨.empty 0, []⟩

/-- What the nodes of a new network are started in. -/
def World.rooted (root : String) (generated : Nat) : World :=
  ⟨.empty generated, [⟨.makeRoot, .ok root⟩]⟩

/-- The network that a valid configuration is for. -/
def Network.ofValid (config : NetworkConfig) (valid : ValidatedNetwork) (root : String) : Network :=
  ⟨config.name, valid.networkId, config.genesis, config.effectiveFlags, root⟩

theorem World.InOrder.rooted (root : String) (generated : Nat) :
    (World.rooted root generated).InOrder [] :=
  ⟨.empty _, Books.nil.skip rfl rfl rfl rfl⟩

/-- What is to be shown of a creation: that of the starts, once the configuration is accepted and the
root directory is there. -/
theorem ensures_create_of {P : World → HostRequest → Prop} {Q : Except NetworkError Network → World → Prop}
    {config : NetworkConfig}
    (hinvalid : ∀ e, Validation.validate config = .error e → Q (.error (.invalid e)) .blank)
    (hroot : ∀ valid, Validation.validate config = .ok valid → P .blank .makeRoot)
    (hrootless : ∀ valid fault, Validation.validate config = .ok valid →
      Q (.error (.io fault)) (World.blank.record .makeRoot (.error fault)))
    (hstart : ∀ valid root, Validation.validate config = .ok valid →
      (World.rooted root valid.generated).Ensures P
        (fun result w => Q (result.map fun _ => .ofValid config valid root) w)
        ((Network.ofValid config valid root).startNodes
          (config.nodes.zip (valid.names.zip valid.nodes))).run) :
    World.blank.Ensures P Q (Network.create config).run := by
  unfold Network.create
  rw [World.ensures_run_bind]
  cases hvalid : Validation.validate config with
  | error e => exact hinvalid e hvalid
  | ok valid =>
      change World.Ensures _ _ (ExceptT.run (ExceptT.adapt NetworkError.io
        (ExceptT.mk (Task.ask .makeRoot)) >>= _)) World.blank
      rw [World.ensures_run_bind, World.ensures_run_adapt]
      refine ⟨hroot valid hvalid, fun answer => ?_⟩
      cases answer with
      | error fault => exact hrootless valid fault hvalid
      | ok root =>
          change World.Ensures _ _ (ExceptT.run (Network.startNodes _ _ >>= _))
            (World.rooted root valid.generated)
          rw [World.ensures_run_bind]
          refine (hstart valid root hvalid).mono (fun _ _ => id) fun result w' h => ?_
          cases result with
          | error e => exact h
          | ok _ => exact h

theorem ensures_create (config : NetworkConfig) :
    World.Ensures (LaunchesInTurn (Names.resolve config.nodes))
      (fun result w' => result.isOk → ∃ roll : List Node,
        roll.map (·.name) = Names.resolve config.nodes ∧ w'.InOrder roll)
      (Network.create config).run .blank := by
  refine ensures_create_of (fun _ _ => nofun) (fun valid hvalid => ?_) (fun _ _ _ => nofun) ?_
  · have haccepted := Validation.accepted_of_validate hvalid
    exact ⟨haccepted.nodup, [], List.nil_prefix, by rintro config args ⟨⟩⟩
  intro valid root hvalid
  have haccepted := Validation.accepted_of_validate hvalid
  refine (ensures_startNodes _ haccepted.nodup _ (.rooted root valid.generated)
    haccepted.zip_names).mono (fun _ _ => id) fun result w' h => ?_
  cases result with
  | error e => exact nofun
  | ok _ => exact fun _ => h rfl

/-- A creation fails before a node is started, or the start of its nodes is all that is left of it. -/
theorem ends_of_create {config : NetworkConfig} {oracle : World.Oracle}
    {result : Except NetworkError Network} {w : World}
    (h : World.run oracle (Network.create config).run .blank = (result, w)) :
    (result.isOk = false ∧ w.registry = World.blank.registry) ∨
      ∃ valid root started, Validation.validate config = .ok valid ∧ oracle [] .makeRoot = .ok root ∧
        World.run oracle ((Network.ofValid config valid root).startNodes
          (config.nodes.zip (valid.names.zip valid.nodes))).run (.rooted root valid.generated) =
          (started, w) ∧
        result = started.map fun _ => .ofValid config valid root := by
  unfold Network.create at h
  cases hvalid : Validation.validate config with
  | error e =>
      rw [hvalid] at h
      cases h
      exact .inl ⟨rfl, rfl⟩
  | ok valid =>
      rw [hvalid] at h
      have hfirst : World.run oracle (ExceptT.adapt NetworkError.io
          (ExceptT.mk (Task.ask .makeRoot))).run World.blank =
          ((oracle [] .makeRoot).mapError NetworkError.io,
            World.blank.record .makeRoot (oracle [] .makeRoot)) := rfl
      change World.run oracle (ExceptT.run (ExceptT.adapt NetworkError.io
        (ExceptT.mk (Task.ask .makeRoot)) >>= _)) World.blank = _ at h
      cases hroot : oracle [] .makeRoot with
      | error fault =>
          rw [hroot] at hfirst
          rw [World.run_run_bind_of_error hfirst] at h
          cases h
          exact .inl ⟨rfl, rfl⟩
      | ok root =>
          rw [hroot] at hfirst
          rw [World.run_run_bind_of_ok hfirst] at h
          change World.run oracle (ExceptT.run (Network.startNodes (.ofValid config valid root) _ >>= _))
            (World.rooted root valid.generated) = _ at h
          refine .inr ⟨valid, root, ?_⟩
          cases hstart : World.run oracle ((Network.ofValid config valid root).startNodes
            (config.nodes.zip (valid.names.zip valid.nodes))).run (.rooted root valid.generated) with
          | mk started w₁ =>
              refine ⟨started, rfl, rfl, ?_⟩
              cases started with
              | error e =>
                  rw [World.run_run_bind_of_error hstart] at h
                  cases h
                  exact ⟨rfl, rfl⟩
              | ok _ =>
                  rw [World.run_run_bind_of_ok hstart] at h
                  cases h
                  exact ⟨rfl, rfl⟩
/-- The start of its nodes is all that is left of a creation that succeeds. -/
theorem starts_of_create {config : NetworkConfig} {oracle : World.Oracle} {network : Network} {w : World}
    (h : World.run oracle (Network.create config).run .blank = (.ok network, w)) :
    ∃ valid root, Validation.validate config = .ok valid ∧ oracle [] .makeRoot = .ok root ∧
      network = .ofValid config valid root ∧
      World.run oracle (network.startNodes (config.nodes.zip (valid.names.zip valid.nodes))).run
        (.rooted root valid.generated) = (.ok (), w) := by
  rcases ends_of_create h with ⟨hfailed, -⟩ | ⟨valid, root, started, hvalid, hroot, hstart, hresult⟩
  · cases hfailed
  · cases started with
    | error e => cases hresult
    | ok _ =>
        obtain rfl := Except.ok.inj hresult
        exact ⟨valid, root, hvalid, hroot, rfl, hstart⟩

/-! ### Runs -/

/-- A network, its roll and the world after a creation and some calls, whatever the host answered. -/
inductive Life : Network → List Node → World → Prop
  | created {config : NetworkConfig} {oracle : World.Oracle} {network : Network} {w : World} :
      World.run oracle (Network.create config).run .blank = (.ok network, w) →
      Life network ((Names.resolve config.nodes).filterMap w.registry.nodes.get?) w
  | called {network : Network} {roll : List Node} {w w' : World} {call : Call}
      {oracle : World.Oracle} {result : Except NetworkError Answer} :
      Life network roll w →
      World.run oracle (call.operation network).run w = (result, w') →
      Life network (call.rollAfter result roll) w'

theorem inOrder_of_create {config : NetworkConfig} {oracle : World.Oracle} {network : Network}
    {w : World} (h : World.run oracle (Network.create config).run .blank = (.ok network, w)) :
    w.InOrder ((Names.resolve config.nodes).filterMap w.registry.nodes.get?) := by
  have hrun := (ensures_create config).run oracle
  rw [h] at hrun
  obtain ⟨roll, hnames, hw⟩ := hrun rfl
  rwa [hw.enrolled.filterMap_get? ⟨[], by simpa using hnames⟩ (hnames ▸ hw.enrolled.nodup_names)]

theorem Life.inOrder {network : Network} {roll : List Node} {w : World}
    (h : Life network roll w) : w.InOrder roll := by
  induction h with
  | created hcreate => exact inOrder_of_create hcreate
  | @called network roll w w' call oracle result _ hcall ih =>
      have hrun := (ensures_call network call ih).run oracle
      rwa [hcall] at hrun

theorem keptByCalls_inOrder (network : Network) :
    KeptByCalls network fun w => ∃ roll, w.InOrder roll := by
  rintro call w ⟨roll, h⟩
  exact (ensures_call network call h).ends fun _ _ hw' => ⟨_, hw'⟩

/-- The worlds of a network in which no call is under way, after a creation and whatever calls and
waits came then, in any order of their steps and with any answers of the host. -/
inductive Reached (network : Network) : World → Prop
  | mk {config : NetworkConfig} {oracle : World.Oracle} {w : World} {interval now : Nat}
      {moves : List Move} {m : Machine} :
      World.run oracle (Network.create config).run .blank = (.ok network, w) →
      (Machine.start network interval now w).run moves = some m → m.holder = none →
      Reached network m.world

theorem Reached.inOrder {network : Network} {w : World} (h : Reached network w) :
    ∃ roll, w.InOrder roll := by
  obtain ⟨hcreate, hrun, hidle⟩ := h
  exact Machine.invariant_of_run (keptByCalls_inOrder network) ⟨_, inOrder_of_create hcreate⟩ hrun
    hidle

/-! ### A small network -/

/-- A node that leaves all but its name open. -/
def plainNode (name : String) : NodeConfig :=
  { NodeConfig.empty with name, implDocument := some "\x7b\x7d" }

def soloConfig : NetworkConfig :=
  { NetworkConfig.empty with
    genesis := "\x7b\"networkID\":7\x7d"
    nodes := [{ plainNode "a" with isBeacon := true }] }

def anyIdentity : StakingIdentity := ⟨"key", "cert", ⟨List.replicate 20 0, rfl⟩⟩

/-- Answers that grant everything. -/
def willing (port : Port) : (request : HostRequest) → request.Answer
  | .identity => .ok anyIdentity
  | .unusedPort => some port
  | .makeRoot => .ok "/net"
  | .makeDir _ | .writeFile _ _ | .launch _ _ | .connect _ _ _ _ | .start _ | .stop _ => .ok ()
  | .close _ => ()

/-- A host that grants everything, and gives out each port once. -/
def willingHost : World.Oracle := fun history => willing (9650 + .ofNat history.length)

end Localnet
