import Localnet.Proofs.Network.Creation

/-!
# What lasts

A property of the registered nodes and of what has happened lasts if a node that is set up gets it, and
if nothing takes it away that is asked for while another node is set up or a node is shut down. Then it
holds in every world of a network's life, and in the middle of every call. Both the names of the nodes
and the configurations that come in may be restricted.
-/

namespace Localnet

open Network (chosenName)

/-- A configuration that was given and accepted, under a name of some kind. -/
structure Admitted (allowed : String → Prop) (given : NodeConfig → Prop) (network : Network)
    (config : NodeConfig) (name : String) (valid : ValidatedNode) : Prop where
  name_allowed : allowed name
  config_given : given config
  accepted : ∀ label,
    Validation.validateNode config label (network.flagsOf config) network.networkId = .ok valid

/-- What holds of some nodes with a history, where nodes are set up under names of some kind. -/
structure Lasting (allowed : String → Prop) (given : NodeConfig → Prop) (network : Network)
    (I : List Node → List Event → Prop) : Prop where
  start : I [] [⟨.makeRoot, .ok network.root⟩]
  sub : ∀ {nodes nodes' history}, nodes' ⊆ nodes → I nodes history → I nodes' history
  others : ∀ {nodes history name settings} {request : HostRequest} {reply : request.Reply},
    I nodes history → (∀ node ∈ nodes, node.name ≠ name) → allowed name →
    request.IsFor network name settings → I nodes (⟨request, reply⟩ :: history)
  shutDown : ∀ {nodes history} {request : HostRequest} {reply : request.Reply},
    I nodes history → request.isShutDown → I nodes (⟨request, reply⟩ :: history)
  ready : ∀ {nodes config name valid w node w'}, I nodes w'.history →
    Admitted allowed given network config name valid →
    Turn network config name valid w (.ok node) w' → I (node :: nodes) w'.history

/-- A property holds of the registered nodes. -/
def World.Has (I : List Node → List Event → Prop) (w : World) : Prop :=
  I w.registry.nodes.values w.history

/-- A node has no name of its own, or one of some kind. -/
def NodeConfig.NamedBy (allowed : String → Prop) (config : NodeConfig) : Prop :=
  config.name ≠ "" → allowed config.name

/-- The life of a network whose nodes have names of some kind. -/
inductive LifeOf (allowed : String → Prop) : Network → List Node → World → Prop
  | created {config : NetworkConfig} {oracle : World.Oracle} {network : Network} {w : World} :
      (∀ node ∈ config.nodes, node.NamedBy allowed) →
      World.run oracle (Network.create config).run .blank = (.ok network, w) →
      LifeOf allowed network ((Names.resolve config.nodes).filterMap w.registry.nodes.get?) w
  | called {network : Network} {roll : List Node} {w w' : World} {call : Call}
      {oracle : World.Oracle} {result : Except NetworkError Answer} :
      LifeOf allowed network roll w → (∀ config, call = .add config → config.NamedBy allowed) →
      World.run oracle (call.operation network).run w = (result, w') →
      LifeOf allowed network (call.rollAfter result roll) w'

/-- The worlds that a network comes through: those between the calls, and those in which something is
asked for, by a call or while the network is created. -/
inductive Visited (allowed : String → Prop) : Network → World → Prop
  | creating {config : NetworkConfig} {valid : ValidatedNetwork} {root : String}
      {oracle : World.Oracle} {x : World × HostRequest} :
      (∀ node ∈ config.nodes, node.NamedBy allowed) → Validation.validate config = .ok valid →
      x ∈ World.asked oracle (Network.create config).run .blank →
      [⟨.makeRoot, .ok root⟩] <:+ x.1.history → Visited allowed (.ofValid config valid root) x.1
  | between {network : Network} {roll : List Node} {w : World} : LifeOf allowed network roll w →
      Visited allowed network w
  | calling {network : Network} {roll : List Node} {w : World} {call : Call}
      {oracle : World.Oracle} {x : World × HostRequest} :
      LifeOf allowed network roll w → (∀ config, call = .add config → config.NamedBy allowed) →
      x ∈ World.asked oracle (call.operation network).run w → Visited allowed network x.1

/-- The life of a network that was given configurations of some kind. -/
inductive LifeWith (given : NodeConfig → Prop) : Network → List Node → World → Prop
  | created {config : NetworkConfig} {oracle : World.Oracle} {network : Network} {w : World} :
      (∀ node ∈ config.nodes, given node) →
      World.run oracle (Network.create config).run .blank = (.ok network, w) →
      LifeWith given network ((Names.resolve config.nodes).filterMap w.registry.nodes.get?) w
  | called {network : Network} {roll : List Node} {w w' : World} {call : Call}
      {oracle : World.Oracle} {result : Except NetworkError Answer} :
      LifeWith given network roll w → (∀ config, call = .add config → given config) →
      World.run oracle (call.operation network).run w = (result, w') →
      LifeWith given network (call.rollAfter result roll) w'

/-- The worlds that such a network comes through, each with what is asked for in it, if anything is. -/
inductive VisitedWith (given : NodeConfig → Prop) : Network → World → Option HostRequest → Prop
  | creating {config : NetworkConfig} {valid : ValidatedNetwork} {root : String}
      {oracle : World.Oracle} {x : World × HostRequest} :
      (∀ node ∈ config.nodes, given node) → Validation.validate config = .ok valid →
      x ∈ World.asked oracle (Network.create config).run .blank →
      [⟨.makeRoot, .ok root⟩] <:+ x.1.history →
      VisitedWith given (.ofValid config valid root) x.1 (some x.2)
  | between {network : Network} {roll : List Node} {w : World} : LifeWith given network roll w →
      VisitedWith given network w none
  | calling {network : Network} {roll : List Node} {w : World} {call : Call}
      {oracle : World.Oracle} {x : World × HostRequest} :
      LifeWith given network roll w → (∀ config, call = .add config → given config) →
      x ∈ World.asked oracle (call.operation network).run w →
      VisitedWith given network x.1 (some x.2)

section

variable {allowed : String → Prop} {given : NodeConfig → Prop} {network : Network}
  {I : List Node → List Event → Prop} {roll : List Node} {w : World}

theorem LifeWith.life (h : LifeWith given network roll w) : Life network roll w := by
  induction h with
  | created _ hcreate => exact .created hcreate
  | called _ _ hcall ih => exact .called ih hcall

theorem LifeOf.lifeWith (h : LifeOf allowed network roll w) :
    LifeWith (NodeConfig.NamedBy allowed) network roll w := by
  induction h with
  | created hnamed hcreate => exact .created hnamed hcreate
  | called _ hnamed hcall ih => exact .called ih hnamed hcall

theorem Visited.visitedWith (h : Visited allowed network w) :
    ∃ asked, VisitedWith (NodeConfig.NamedBy allowed) network w asked := by
  cases h with
  | creating hnamed hvalid hasked hroot => exact ⟨_, .creating hnamed hvalid hasked hroot⟩
  | between hlife => exact ⟨none, .between hlife.lifeWith⟩
  | calling hlife hnamed hasked => exact ⟨_, .calling hlife.lifeWith hnamed hasked⟩

theorem NodeConfig.NamedBy.chosenName {config : NodeConfig} (h : config.NamedBy allowed)
    (hgenerated : ∀ n, allowed (Names.generated n)) (r : Registry) :
    allowed (chosenName config r) := by
  unfold Network.chosenName
  split
  · exact hgenerated _
  next hname => exact h hname

theorem allowed_of_mem_resolve {nodes : List NodeConfig} (h : ∀ node ∈ nodes, node.NamedBy allowed)
    (hgenerated : ∀ n, allowed (Names.generated n)) {name : String} (hname : name ∈ Names.resolve nodes) :
    allowed name := by
  rcases Names.mem_resolveFrom hname with ⟨n, rfl⟩ | ⟨node, hnode, hne, rfl⟩
  · exact hgenerated n
  · exact h node hnode hne

theorem Enrolled.name_ne {r : Registry} {name : String} (h : Enrolled roll r) (hfree : name ∉ r.nodes.names) :
    ∀ node ∈ r.nodes.values, node.name ≠ name := by
  rintro node hnode rfl
  exact hfree (h.names_perm.mem_iff.mp (List.mem_map_of_mem (h.values.mem_iff.mpr hnode)))

namespace Lasting

/-- Nothing that is asked for while a node is set up takes it away. -/
theorem ensures_startNode (h : Lasting allowed given network I) {config : NodeConfig} {name : String}
    {valid : ValidatedNode} (hw : w.Has I)
    (hadmitted : Admitted allowed given network config name valid)
    (hfree : ∀ node ∈ w.registry.nodes.values, node.name ≠ name) :
    w.Ensures (fun w' _ => w'.Has I) (fun _ w' => w'.Has I)
      (network.startNode config name valid).run := by
  have hturn : w.Ensures
      (fun w' request => TurnAsks network config name valid w w' request ∧
        I w.registry.nodes.values w'.history)
      (fun result w' => Turn network config name valid w result w' ∧
        I w.registry.nodes.values w'.history)
      (network.setUp config name valid).run :=
    (network.ensures_turn config name valid w).along hw fun w' request reply hasks hI =>
      h.others hI hfree hadmitted.name_allowed hasks.2.1
  refine Network.ensures_startNode_of (hturn.mono ?_ fun _ _ => id) ?_ ?_
  · rintro w' request ⟨⟨hregistry, -⟩, hI⟩
    rwa [World.Has, hregistry]
  · rintro e w' ⟨hend, hI⟩
    rwa [World.Has, hend.setUpEnd.registry_eq]
  · rintro node w' ⟨hend, hI⟩
    have hready : I (node :: w'.registry.nodes.values) w'.history :=
      h.ready (hend.setUpEnd.registry_eq.symm ▸ hI) hadmitted hend
    refine h.sub (fun other hother => ?_) hready
    obtain ⟨entry, hentry, rfl⟩ := List.mem_map.mp hother
    rcases Members.mem_insert hentry with rfl | hentry
    · exact List.mem_cons_self
    · exact List.mem_cons_of_mem _ (List.mem_map_of_mem hentry)

theorem ensures_startNodes (h : Lasting allowed given network I) {names : List String}
    (hnodup : names.Nodup) {entries : List Entry} (hroll : w.InOrder roll) (hw : w.Has I)
    (hadmitted : ∀ entry ∈ entries, Admitted allowed given network entry.1 entry.2.1 entry.2.2)
    (hnames : roll.map (·.name) ++ entries.map (·.2.1) = names) :
    w.Ensures (fun w' _ => w'.Has I) (fun _ w' => w'.Has I) (network.startNodes entries).run := by
  refine ensures_startNodes_of (fun _ w => w.Has I) hnodup ?_ (fun _ _ hw => hw) hroll hw hnames
  intro roll w config name valid hentry hroll hw _ hfree
  refine (h.ensures_startNode hw (hadmitted _ hentry) (hroll.enrolled.name_ne hfree)).mono
    (fun _ _ => id) fun _ _ hw' => ⟨fun _ _ => hw', fun _ _ => hw'⟩

/-- Nodes that are shut down take nothing away from the others. -/
theorem ensures_of_shutDownAsks (h : Lasting allowed given network I) {α : Type} {Q : α → World → Prop}
    {task : Task α} (hw : w.Has I) (htask : w.Ensures (ShutDownAsks w) Q task)
    (hQ : ∀ a w', Q a w' → w'.registry.nodes.values ⊆ w.registry.nodes.values) :
    w.Ensures (fun w' _ => w'.Has I) (fun _ w' => w'.Has I) task := by
  have hI : w.Ensures
      (fun w' request => ShutDownAsks w w' request ∧ I w.registry.nodes.values w'.history)
      (fun a w' => Q a w' ∧ I w.registry.nodes.values w'.history) task :=
    htask.along hw fun w' request reply hasks hI => h.shutDown hI hasks.1
  refine hI.mono ?_ ?_
  · rintro w' request ⟨⟨-, hsub⟩, hI⟩
    exact h.sub hsub hI
  · rintro a w' ⟨hend, hI⟩
    exact h.sub (hQ a w' hend) hI

theorem ensures_call (h : Lasting allowed given network I) (hgenerated : ∀ n, allowed (Names.generated n))
    (hnames : ∀ config, given config → config.NamedBy allowed) (call : Call)
    (hcall : ∀ config, call = .add config → given config) (hroll : w.InOrder roll) (hw : w.Has I) :
    w.Ensures (fun w' _ => w'.Has I) (fun _ w' => w'.Has I) (call.operation network).run := by
  have hnamed : ∀ config, (w.named config).Has I := by
    intro config
    change I (Network.afterNaming config w.registry).nodes.values w.history
    rw [Network.afterNaming_nodes]
    exact hw
  cases call with
  | add config =>
      rw [Call.operation, World.ensures_run_map]
      refine Network.ensures_add_of (fun _ => hw) (fun _ _ _ => hw) (fun _ _ _ _ => hnamed config) ?_
      intro valid _ hchecked hfree
      have hgiven := hcall config rfl
      refine h.ensures_startNode (hnamed config) ⟨(hnames config hgiven).chosenName hgenerated _, hgiven,
        Validation.validateNode_of_label hchecked⟩ ?_
      refine (hroll.named config).enrolled.name_ne ?_
      exact (Network.afterNaming_nodes config w.registry).symm ▸ hfree
  | remove name =>
      rw [Call.operation, World.ensures_run_map]
      refine h.ensures_of_shutDownAsks hw (Network.ensures_remove name w) fun result w' hend => ?_
      cases hend with
      | stopped _ => exact List.Subset.refl _
      | notFound _ _ => exact List.Subset.refl _
      | removed _ _ => exact List.map_subset _ (List.filter_subset_self _)
  | get name =>
      rw [Call.operation, World.ensures_run_map]
      exact Network.ensures_find (fun _ => hw) (fun _ _ => hw) fun _ _ _ => hw
  | names =>
      rw [Call.operation, World.ensures_run_map, Network.nodeNames, World.ensures_run_bind]
      exact Network.ensures_running (fun _ => hw) fun _ => hw
  | all =>
      rw [Call.operation, World.ensures_run_map, Network.allNodes, World.ensures_run_bind]
      exact Network.ensures_running (fun _ => hw) fun _ => hw
  | stop =>
      rw [Call.operation, World.ensures_run_map]
      refine h.ensures_of_shutDownAsks hw (Network.ensures_stop w) fun result w' hend => ?_
      cases hend with
      | stopped _ => exact List.Subset.refl _
      | done _ _ => exact List.nil_subset _

end Lasting

/-- The first event of a history is one. -/
theorem eq_of_singleton_suffix {α : Type} {a b : α} {l : List α} (ha : [a] <:+ l) (hb : [b] <:+ l) :
    a = b := by
  have heq := (List.suffix_of_suffix_length_le ha hb (Nat.le_refl 1)).eq_of_length rfl
  exact (List.cons.inj heq).1

section

variable {I : Network → List Node → List Event → Prop}
  (h : ∀ network, Lasting allowed given network (I network))
  (hgenerated : ∀ n, allowed (Names.generated n))
  (hnames : ∀ config, given config → config.NamedBy allowed)

include h hgenerated hnames

theorem ensures_create_lasting {config : NetworkConfig} (hgiven : ∀ node ∈ config.nodes, given node) :
    World.blank.Ensures
      (fun w _ => ∀ valid root, Validation.validate config = .ok valid →
        [⟨.makeRoot, .ok root⟩] <:+ w.history → w.Has (I (.ofValid config valid root)))
      (fun result w => ∀ network, result = .ok network → w.Has (I network))
      (Network.create config).run := by
  refine ensures_create_of (fun _ _ => nofun) ?_ (fun _ _ _ => nofun) fun valid root hvalid => ?_
  · intro _ _ _ _ _ hsuffix
    cases List.suffix_nil.mp hsuffix
  have haccepted := Validation.accepted_of_validate hvalid
  have hadmitted : ∀ entry ∈ config.nodes.zip (valid.names.zip valid.nodes),
      Admitted allowed given (.ofValid config valid root) entry.1 entry.2.1 entry.2.2 := by
    intro entry hentry
    refine ⟨?_, hgiven _ (List.of_mem_zip hentry).1, haccepted.aligned.valid entry hentry⟩
    refine allowed_of_mem_resolve (fun node hnode => hnames node (hgiven node hnode)) hgenerated ?_
    rw [← haccepted.zip_names]
    exact List.mem_map_of_mem hentry
  have hlasting := h (.ofValid config valid root)
  have hstart := (hlasting.ensures_startNodes haccepted.nodup (.rooted root valid.generated)
    hlasting.start hadmitted haccepted.zip_names).and (World.ensures_history _ _)
  refine hstart.mono ?_ ?_
  · rintro w _ ⟨hI, hsuffix⟩ valid' root' hvalid' hsuffix'
    cases hvalid.symm.trans hvalid'
    cases eq_of_singleton_suffix hsuffix hsuffix'
    exact hI
  · rintro result w ⟨hI, -⟩ network hnetwork
    cases result with
    | error e => cases hnetwork
    | ok _ =>
        cases hnetwork
        exact hI

theorem LifeWith.has (hlife : LifeWith given network roll w) : w.Has (I network) := by
  induction hlife with
  | @created config oracle network w hgiven hcreate =>
      have hrun := (ensures_create_lasting h hgenerated hnames hgiven).run oracle
      rw [hcreate] at hrun
      exact hrun network rfl
  | @called network roll w w' call oracle result hlife hcall hrun ih =>
      have hrun' := ((h network).ensures_call hgenerated hnames call hcall hlife.life.inOrder ih).run oracle
      rwa [hrun] at hrun'

/-- What lasts holds of the registered nodes, whatever is going on. -/
theorem VisitedWith.has {asked : Option HostRequest} (hvisited : VisitedWith given network w asked) :
    w.Has (I network) := by
  cases hvisited with
  | creating hgiven hvalid hasked hsuffix =>
      exact (ensures_create_lasting h hgenerated hnames hgiven).asked _ _ hasked _ _ hvalid hsuffix
  | between hlife => exact hlife.has h hgenerated hnames
  | calling hlife hcall hasked =>
      have hw := hlife.has h hgenerated hnames
      exact ((h network).ensures_call hgenerated hnames _ hcall hlife.life.inOrder hw).asked _ _ hasked

end

/-- The same, where nothing but the names of the nodes is restricted. -/
theorem Visited.has {I : Network → List Node → List Event → Prop} (hvisited : Visited allowed network w)
    (h : ∀ network, Lasting allowed (NodeConfig.NamedBy allowed) network (I network))
    (hgenerated : ∀ n, allowed (Names.generated n)) : w.Has (I network) := by
  obtain ⟨asked, hwith⟩ := hvisited.visitedWith
  exact hwith.has h hgenerated fun _ => id

end

end Localnet
