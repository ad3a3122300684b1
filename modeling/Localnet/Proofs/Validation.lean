import Localnet.Proofs.Names
import Localnet.Validation

/-!
# What an accepted configuration is

Each check of an accepted configuration succeeded by itself, and the names of its nodes are distinct.
What messages call a node has no part in whether it is accepted, and the nodes of a list are accepted
one by one.
-/

namespace Localnet.Validation

theorem bind_eq_ok_iff {ε α β : Type} {x : Except ε α} {f : α → Except ε β} {b : β} :
    (x >>= f) = .ok b ↔ ∃ a, x = .ok a ∧ f a = .ok b := by
  cases x <;> simp [bind, Except.bind]

/-- The parts of a validation that succeeded. -/
structure Accepted (config : NetworkConfig) (valid : ValidatedNetwork) : Prop where
  networkId : Genesis.networkId config.genesis = .ok valid.networkId
  nodes : validateNodes config valid.networkId 0 config.nodes = .ok valid.nodes
  beacons : checkBeacons config.nodes = .ok ()
  names : valid.names = Names.resolve config.nodes
  nodup : (Names.resolve config.nodes).Nodup
  generated : valid.generated = Names.generatedCount config.nodes

theorem accepted_of_validate {config : NetworkConfig} {valid : ValidatedNetwork}
    (h : validate config = .ok valid) : Accepted config valid := by
  simp only [validate, bind_eq_ok_iff] at h
  obtain ⟨genesis, hgenesis, nodes, hnodes, _, hbeacons, _, hunique, heq⟩ := h
  cases heq
  exact ⟨hgenesis, hnodes, hbeacons, rfl, (Names.ensureUnique_eq_ok_iff _).mp hunique, rfl⟩

theorem length_of_validateNodes {config : NetworkConfig} {genesis : NetworkId} {index : Nat}
    {nodes : List NodeConfig} {valid : List ValidatedNode}
    (h : validateNodes config genesis index nodes = .ok valid) : valid.length = nodes.length := by
  induction nodes generalizing index valid with
  | nil =>
      cases h
      rfl
  | cons node rest ih =>
      simp only [validateNodes, bind_eq_ok_iff] at h
      obtain ⟨first, -, others, hothers, heq⟩ := h
      cases heq
      simp [ih hothers]

/-- Each node of an accepted configuration is started under its name. -/
theorem Accepted.zip_names {config : NetworkConfig} {valid : ValidatedNetwork}
    (h : Accepted config valid) :
    (config.nodes.zip (valid.names.zip valid.nodes)).map (·.2.1) = Names.resolve config.nodes := by
  have hnodes := length_of_validateNodes h.nodes
  have hnames : valid.names.length = config.nodes.length := by rw [h.names, Names.length_resolve]
  calc (config.nodes.zip (valid.names.zip valid.nodes)).map (·.2.1)
      = ((config.nodes.zip (valid.names.zip valid.nodes)).map Prod.snd).map Prod.fst := by
        rw [List.map_map]
        rfl
    _ = valid.names := by
        rw [List.map_snd_zip, List.map_fst_zip]
        · omega
        · rw [List.length_zip]
          omega
    _ = Names.resolve config.nodes := h.names

/-! ### One node by itself -/

theorem toOption_bind {ε α β : Type} (x : Except ε α) (f : α → Except ε β) :
    (x >>= f).toOption = x.toOption.bind fun a => (f a).toOption := by
  cases x <;> rfl

theorem toOption_eq_some_iff {ε α : Type} {x : Except ε α} {a : α} :
    x.toOption = some a ↔ x = .ok a := by
  cases x <;> simp [Except.toOption]

theorem toOption_mapError {ε ε' α : Type} (f : ε → ε') (x : Except ε α) :
    (x.mapError f).toOption = x.toOption := by
  cases x <;> rfl

theorem toOption_implDocument (node : NodeConfig) (label label' : String) :
    (implDocument node label).toOption = (implDocument node label').toOption := by
  unfold implDocument ImplDocument.parse
  cases node.implDocument.filter (!Text.allBlank ·) with
  | none => rfl
  | some text =>
      dsimp only
      cases Json.parseObject text with
      | error fault => rfl
      | ok members =>
          dsimp only
          rw [toOption_mapError, toOption_mapError]

theorem toOption_fileSettings (node : NodeConfig) (label label' : String) :
    (fileSettings node label).toOption = (fileSettings node label').toOption := by
  unfold fileSettings NodeSettings.ofConfigFile
  cases node.configFile? with
  | none => rfl
  | some text =>
      dsimp only
      cases Json.parseObject text with
      | error fault => rfl
      | ok members =>
          dsimp only
          rw [toOption_mapError, toOption_mapError]

theorem toOption_checkNetworkId (genesis : NetworkId) (declared : List (Option NetworkId))
    (label label' : String) :
    (checkNetworkId genesis declared label).toOption =
      (checkNetworkId genesis declared label').toOption := by
  unfold checkNetworkId
  split <;> rfl

theorem toOption_stakingIdentity (node : NodeConfig) (label label' : String) :
    (stakingIdentity node label).toOption = (stakingIdentity node label').toOption := by
  unfold stakingIdentity
  split
  · split <;> rfl
  · split
    · rfl
    · split <;> rfl

/-- What messages call a node has no part in its validation. -/
theorem toOption_validateNode (node : NodeConfig) (label label' : String) (flags : Flags)
    (genesis : NetworkId) :
    (validateNode node label flags genesis).toOption =
      (validateNode node label' flags genesis).toOption := by
  simp only [validateNode, flagSettings, toOption_bind, toOption_mapError]
  rw [toOption_implDocument node label label', toOption_fileSettings node label label',
    toOption_stakingIdentity node label label']
  simp only [toOption_checkNetworkId genesis _ label label']

theorem validateNode_of_label {node : NodeConfig} {label : String} {flags : Flags}
    {genesis : NetworkId} {valid : ValidatedNode}
    (h : validateNode node label flags genesis = .ok valid) (label' : String) :
    validateNode node label' flags genesis = .ok valid := by
  have heq := toOption_validateNode node label label' flags genesis
  rw [h] at heq
  cases hvalid : validateNode node label' flags genesis with
  | error e =>
      rw [hvalid] at heq
      cases heq
  | ok other =>
      rw [hvalid] at heq
      rw [Option.some.inj heq]

/-- Each node of a list that was accepted is accepted by itself, whatever messages call it. -/
theorem validateNode_of_mem_zip {config : NetworkConfig} {genesis : NetworkId} {index : Nat}
    {nodes : List NodeConfig} {valid : List ValidatedNode}
    (h : validateNodes config genesis index nodes = .ok valid) {entry : NodeConfig × ValidatedNode}
    (hentry : entry ∈ nodes.zip valid) (label : String) :
    validateNode entry.1 label (config.flagsOf entry.1) genesis = .ok entry.2 := by
  induction nodes generalizing index valid with
  | nil => cases hentry
  | cons node rest ih =>
      simp only [validateNodes, bind_eq_ok_iff] at h
      obtain ⟨first, hfirst, others, hothers, heq⟩ := h
      cases heq
      rcases List.mem_cons.mp hentry with rfl | hentry
      · exact validateNode_of_label hfirst label
      · exact ih hothers hentry

theorem validateNodes_append {config : NetworkConfig} {genesis : NetworkId} {index : Nat}
    {first second : List NodeConfig} {valid : List ValidatedNode}
    (h : validateNodes config genesis index (first ++ second) = .ok valid) :
    ∃ valid₁ valid₂, valid = valid₁ ++ valid₂ ∧
      validateNodes config genesis index first = .ok valid₁ ∧
      validateNodes config genesis (index + first.length) second = .ok valid₂ := by
  induction first generalizing index valid with
  | nil => exact ⟨[], valid, rfl, rfl, h⟩
  | cons node rest ih =>
      simp only [List.cons_append, validateNodes, bind_eq_ok_iff] at h
      obtain ⟨head, hhead, others, hothers, heq⟩ := h
      cases heq
      obtain ⟨valid₁, valid₂, rfl, hfirst, hsecond⟩ := ih hothers
      refine ⟨head :: valid₁, valid₂, rfl, ?_, ?_⟩
      · simp only [validateNodes, bind_eq_ok_iff]
        exact ⟨head, hhead, valid₁, hfirst, rfl⟩
      · rw [List.length_cons, Nat.add_comm rest.length, ← Nat.add_assoc]
        exact hsecond

/-- Which nodes there are has no part in the validation of one of them. -/
theorem validateNodes_with_nodes (config : NetworkConfig) (others : List NodeConfig)
    (genesis : NetworkId) (index : Nat) (nodes : List NodeConfig) :
    validateNodes { config with nodes := others } genesis index nodes =
      validateNodes config genesis index nodes := by
  induction nodes generalizing index with
  | nil => rfl
  | cons node rest ih =>
      rw [validateNodes, validateNodes, ih]
      rfl

end Localnet.Validation
