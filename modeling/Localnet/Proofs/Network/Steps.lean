import Localnet.Proofs.Network.Life

/-!
# What becomes of the registry

A call makes at most one step with the registry: it takes one node in, or one out, or all of them, and
the roll goes along. A property of the registry and its roll that every step keeps holds in the whole
life of a network.
-/

namespace Localnet

open World (anything)

/-- What a call can make of a registry and its roll. -/
inductive Registry.Step (roll : List Node) (r : Registry) : List Node → Registry → Prop
  /-- At most a name was used up. -/
  | kept (nextNumber : Nat) : Step roll r roll { r with nextNumber }
  | registered {node : Node} (nextNumber : Nat) : node.name ∉ r.nodes.names →
      Step roll r (roll ++ [node]) ({ r with nextNumber }.register node)
  | unregistered {node : Node} : node ∈ roll →
      Step roll r (roll.filter (·.name ≠ node.name)) (r.unregister node)
  | stopped : Step roll r [] { r.clear with stopped := true }

variable {network : Network} {config : NodeConfig} {roll : List Node} {w w' : World}
  {P : List Node → Registry → Prop}

theorem Network.afterNaming_eq (config : NodeConfig) (r : Registry) :
    ∃ nextNumber, Network.afterNaming config r = { r with nextNumber } := by
  unfold afterNaming
  split
  · exact ⟨_, rfl⟩
  · exact ⟨r.nextNumber, rfl⟩

theorem AddEnd.step {result : Except NetworkError Node} (hend : AddEnd network config w result w') :
    Registry.Step roll w.registry (roll ++ newcomers result) w'.registry := by
  obtain ⟨nextNumber, hnaming⟩ := Network.afterNaming_eq config w.registry
  cases hend with
  | stopped _ =>
      rw [newcomers, List.append_nil]
      exact .kept w.registry.nextNumber
  | invalid _ _ =>
      rw [newcomers, List.append_nil]
      exact .kept w.registry.nextNumber
  | duplicate _ _ _ =>
      rw [newcomers, List.append_nil, World.named, hnaming]
      exact .kept nextNumber
  | started _ _ hfree hstart =>
      cases hstart with
      | failed hsetUp =>
          rw [newcomers, List.append_nil, hsetUp.registry_eq, World.named, hnaming]
          exact .kept nextNumber
      | registered hsetUp =>
          rw [newcomers, hsetUp.registry_eq, World.named, hnaming]
          exact .registered nextNumber (hsetUp.name_eq ▸ hfree)

theorem RemoveEnd.step {name : String} {result : Except NetworkError Unit} (h : w.InOrder roll)
    (hend : RemoveEnd name w result w') :
    Registry.Step roll w.registry (if result.isOk then roll.filter (·.name ≠ name) else roll)
      w'.registry := by
  cases hend with
  | stopped _ => exact .kept w.registry.nextNumber
  | notFound _ _ => exact .kept w.registry.nextNumber
  | @removed node reply _ hget =>
      obtain rfl := h.enrolled.name_of_get? hget
      refine .unregistered (h.enrolled.values.mem_iff.mpr ?_)
      exact List.mem_map_of_mem (f := Prod.snd) (Table.mem_of_get?_eq_some hget)

theorem StopEnd.step {result : Except NetworkError Unit} (hend : StopEnd w result w') :
    Registry.Step roll w.registry (if result.isOk then [] else roll) w'.registry := by
  cases hend with
  | stopped _ => exact .kept w.registry.nextNumber
  | done _ _ => exact .stopped

theorem ensures_call_step (network : Network) (call : Call) (h : w.InOrder roll) :
    w.Ensures anything
      (fun result w' => Registry.Step roll w.registry (call.rollAfter result roll) w'.registry)
      (call.operation network).run := by
  have hkept : Registry.Step roll w.registry roll w.registry := .kept w.registry.nextNumber
  cases call with
  | add config =>
      rw [Call.operation, World.ensures_run_map]
      refine (network.ensures_add config w).ends fun result w' hend => ?_
      have hstep : Registry.Step roll _ _ _ := hend.step
      cases result with
      | ok node => exact hstep
      | error e =>
          rw [newcomers, List.append_nil] at hstep
          exact hstep
  | remove name =>
      rw [Call.operation, World.ensures_run_map]
      refine (Network.ensures_remove name w).ends fun result w' hend => ?_
      have hstep := hend.step h
      cases result <;> exact hstep
  | get name =>
      rw [Call.operation, World.ensures_run_map]
      exact Network.ensures_find (fun _ => hkept) (fun _ _ => hkept) fun _ _ _ => hkept
  | names =>
      rw [Call.operation, World.ensures_run_map, Network.nodeNames, World.ensures_run_bind]
      exact Network.ensures_running (fun _ => hkept) fun _ => hkept
  | all =>
      rw [Call.operation, World.ensures_run_map, Network.allNodes, World.ensures_run_bind]
      exact Network.ensures_running (fun _ => hkept) fun _ => hkept
  | stop =>
      rw [Call.operation, World.ensures_run_map]
      refine (Network.ensures_stop w).ends fun result w' hend => ?_
      have hstep : Registry.Step roll _ _ _ := hend.step
      cases result <;> exact hstep

/-! ### Creation -/

section

variable (hregister : ∀ {roll r node}, Enrolled roll r → P roll r → node.name ∉ r.nodes.names →
  P (roll ++ [node]) (r.register node))

include hregister

theorem ensures_startNodes_register (network : Network) {names : List String} (hnodup : names.Nodup)
    (nodes : List (NodeConfig × String × ValidatedNode)) {roll : List Node} {w : World}
    (h : w.InOrder roll) (hP : P roll w.registry)
    (hnames : roll.map (·.name) ++ nodes.map (·.2.1) = names) :
    w.Ensures anything
      (fun result w' => result.isOk →
        ∃ roll', roll'.map (·.name) = names ∧ w'.InOrder roll' ∧ P roll' w'.registry)
      (network.startNodes nodes).run := by
  refine ensures_startNodes_of (fun roll w => P roll w.registry) hnodup ?_
    (fun hnames h hP _ => ⟨_, hnames, h, hP⟩) h hP hnames
  intro roll w config name valid _ h hP _ hfree
  refine (network.ensures_startNode config name valid w).ends ?_
  intro result w' hend
  refine ⟨fun _ _ => nofun, fun node hnode => ?_⟩
  subst hnode
  cases hend with
  | @registered _ w' hsetUp =>
      change P (roll ++ [node]) (w'.registry.register node)
      rw [hsetUp.registry_eq]
      exact hregister h.enrolled hP (hsetUp.name_eq ▸ hfree)

theorem ensures_create_register (hempty : ∀ nextNumber, P [] (.empty nextNumber))
    (config : NetworkConfig) :
    World.blank.Ensures anything
      (fun result w' => result.isOk → ∃ roll, w'.InOrder roll ∧ P roll w'.registry)
      (Network.create config).run := by
  refine ensures_create_of (fun _ _ => nofun) (fun _ _ => trivial) (fun _ _ _ => nofun) ?_
  intro valid root hvalid
  have haccepted := Validation.accepted_of_validate hvalid
  refine (ensures_startNodes_register hregister _ haccepted.nodup _
    (.rooted root valid.generated) (hempty _) haccepted.zip_names).mono
    (fun _ _ h => h) fun result w' h => ?_
  cases result with
  | error e => exact nofun
  | ok _ =>
      intro _
      obtain ⟨roll, -, hroll⟩ := h rfl
      exact ⟨roll, hroll⟩

end

/-- What every step keeps holds of every registry of a network, for its roll. -/
theorem Reached.of_step (hempty : ∀ nextNumber, P [] (.empty nextNumber))
    (hstep : ∀ {roll r roll' r'}, Enrolled roll r → P roll r → Registry.Step roll r roll' r' →
      P roll' r')
    (h : Reached network w) : ∃ roll, w.InOrder roll ∧ P roll w.registry := by
  have hkept : KeptByCalls network fun w => ∃ roll, w.InOrder roll ∧ P roll w.registry := by
    rintro call w ⟨roll, hroll, hP⟩
    refine ((ensures_call network call hroll).and (ensures_call_step network call hroll)).ends ?_
    rintro result w' ⟨hroll', hstep'⟩
    exact ⟨_, hroll', hstep hroll.enrolled hP hstep'⟩
  cases h with
  | @mk config oracle _ _ _ _ _ hcreate hrun hidle =>
      have hregister : ∀ {roll r node}, Enrolled roll r → P roll r → node.name ∉ r.nodes.names →
          P (roll ++ [node]) (r.register node) :=
        fun {_ r _} henrolled hP hfree => hstep henrolled hP (.registered r.nextNumber hfree)
      have hcreated := (ensures_create_register hregister hempty config).run oracle
      rw [hcreate] at hcreated
      exact Machine.invariant_of_run hkept (hcreated rfl) hrun hidle

end Localnet
