import Localnet.Proofs.Table
import Localnet.Proofs.Violations

/-!
# The order of the nodes

Whether a configuration is accepted does not depend on the order of its nodes. Its names and its validated
nodes are the same ones then, in another order, and a node that has a name has the same validated node
under it. Only the generated names may fall to other nodes.
-/

namespace Localnet

/-- The validated node that goes by a name. -/
def ValidatedNetwork.node? (valid : ValidatedNetwork) (name : String) : Option ValidatedNode :=
  Members.find? name (valid.names.zip valid.nodes)

/-- Validated networks that differ at most in the order of their nodes, and in which of the nodes without a
name has which generated one. -/
structure SameButOrder (configs : List NodeConfig) (valid valid' : ValidatedNetwork) : Prop where
  networkId : valid'.networkId = valid.networkId
  generated : valid'.generated = valid.generated
  names : valid'.names.Perm valid.names
  nodes : valid'.nodes.Perm valid.nodes
  named : ∀ config ∈ configs, config.name ≠ "" → ∃ node,
    valid.node? config.name = some node ∧ valid'.node? config.name = some node

namespace Validation

variable {config : NetworkConfig} {nodes : List NodeConfig} {valid valid' : ValidatedNetwork}

/-- What validation makes of a node, if it accepts it. -/
def validated? (config : NetworkConfig) (genesis : NetworkId) (node : NodeConfig) : Option ValidatedNode :=
  (validateNode node "" (config.flagsOf node) genesis).toOption

theorem zip_of_validateNodes {genesis : NetworkId} {index : Nat} {validNodes : List ValidatedNode}
    (h : validateNodes config genesis index nodes = .ok validNodes) :
    nodes.zip validNodes = nodes.filterMap fun node => (validated? config genesis node).map (node, ·) := by
  induction nodes generalizing index validNodes with
  | nil => rfl
  | cons node rest ih =>
      simp only [validateNodes, bind_eq_ok_iff] at h
      obtain ⟨first, hfirst, others, hothers, heq⟩ := h
      cases heq
      have hnode : validated? config genesis node = some first :=
        toOption_eq_some_iff.mpr (validateNode_of_label hfirst "")
      rw [List.zip_cons_cons, List.filterMap_cons, hnode, ih hothers]
      rfl

/-- The nodes are the same ones, each with what validation makes of it. -/
theorem Accepted.zip_perm (hperm : nodes.Perm config.nodes) (h : Accepted config valid)
    (h' : Accepted { config with nodes } valid') :
    (nodes.zip valid'.nodes).Perm (config.nodes.zip valid.nodes) := by
  have hid : valid'.networkId = valid.networkId := Except.ok.inj (h'.networkId.symm.trans h.networkId)
  have hnodes := h'.nodes
  rw [validateNodes_with_nodes, hid] at hnodes
  rw [zip_of_validateNodes hnodes, zip_of_validateNodes h.nodes]
  exact hperm.filterMap _

theorem Accepted.node?_eq_some (h : Accepted config valid) {node : NodeConfig} {validNode : ValidatedNode}
    (hmem : (node, validNode) ∈ config.nodes.zip valid.nodes) (hname : node.name ≠ "") :
    valid.node? node.name = some validNode := by
  have hlength : valid.names.length ≤ valid.nodes.length := by
    rw [h.names, Names.length_resolve, length_of_validateNodes h.nodes]
  refine Members.find?_eq_some_of_mem ?_ ?_
  · rw [List.map_fst_zip hlength, h.names]
    exact h.nodup
  · rw [h.names]
    exact Names.mem_zip_resolveFrom hmem hname

theorem WellFormed.of_perm (hperm : nodes.Perm config.nodes) (h : WellFormed config) :
    WellFormed { config with nodes } := by
  obtain ⟨⟨genesis, hgenesis, hnodes⟩, hbeacons, hnames⟩ := h
  refine ⟨⟨genesis, hgenesis, fun node hnode => ?_⟩, ?_, ?_⟩
  · exact hnodes node (hperm.mem_iff.mp hnode)
  · rcases hbeacons with hnil | ⟨node, hnode, hbeacon⟩
    · rw [hnil] at hperm
      exact .inl hperm.eq_nil
    · exact .inr ⟨node, hperm.mem_iff.mpr hnode, hbeacon⟩
  · exact (Names.resolve_perm hperm).nodup_iff.mpr hnames

theorem wellFormed_perm_iff (hperm : nodes.Perm config.nodes) :
    WellFormed { config with nodes } ↔ WellFormed config := by
  constructor
  · intro h
    have hback : WellFormed { { config with nodes } with nodes := config.nodes } :=
      h.of_perm hperm.symm
    exact hback
  · exact fun h => h.of_perm hperm

theorem exists_validate_iff : (∃ valid, validate config = .ok valid) ↔ WellFormed config := by
  rw [(reports_validate config).exists_ok_iff, violations_eq_nil_iff]

theorem Accepted.sameButOrder (hperm : nodes.Perm config.nodes) (h : Accepted config valid)
    (h' : Accepted { config with nodes } valid') : SameButOrder config.nodes valid valid' := by
  have hlength := length_of_validateNodes h.nodes
  have hlength' := length_of_validateNodes h'.nodes
  have hzip := h.zip_perm hperm h'
  constructor
  · exact Except.ok.inj (h'.networkId.symm.trans h.networkId)
  · rw [h'.generated, h.generated]
    exact Names.generatedCount_perm hperm
  · rw [h'.names, h.names]
    exact Names.resolve_perm hperm
  · have hnodes := hzip.map Prod.snd
    rwa [List.map_snd_zip hlength'.le, List.map_snd_zip hlength.le] at hnodes
  · intro node hnode hname
    rw [← List.map_fst_zip hlength.ge] at hnode
    obtain ⟨⟨_, validNode⟩, hmem, rfl⟩ := List.mem_map.mp hnode
    exact ⟨validNode, h.node?_eq_some hmem hname, h'.node?_eq_some (hzip.mem_iff.mpr hmem) hname⟩

/-- **The order of the nodes.** A configuration is accepted in one order of its nodes if and only if it is
accepted in another one, and what it comes to is the same but for the order. -/
theorem acceptance_ignores_order (hperm : nodes.Perm config.nodes) :
    ((∃ valid', validate { config with nodes } = .ok valid') ↔ ∃ valid, validate config = .ok valid) ∧
      ∀ valid valid', validate config = .ok valid → validate { config with nodes } = .ok valid' →
        SameButOrder config.nodes valid valid' := by
  constructor
  · rw [exists_validate_iff, exists_validate_iff]
    exact wellFormed_perm_iff hperm
  · intro valid valid' hvalid hvalid'
    exact (accepted_of_validate hvalid).sameButOrder hperm (accepted_of_validate hvalid')

/-- Two nodes without a name, and one that has one between them. -/
def mixedConfig : NetworkConfig :=
  { NetworkConfig.empty with
    genesis := "\x7b\"networkID\":7\x7d"
    nodes := [
      { NodeConfig.empty with isBeacon := true, implDocument := some "\x7b\x7d" },
      { NodeConfig.empty with name := "b", implDocument := some "\x7b\"http-port\":9650\x7d" },
      { NodeConfig.empty with implDocument := some "\x7b\"binaryPath\":\"/bin/node\"\x7d" }] }

theorem acceptance_ignores_order_of_mixed :
    mixedConfig.nodes.reverse.Perm mixedConfig.nodes ∧ ∃ valid valid',
      validate mixedConfig = .ok valid ∧
      validate { mixedConfig with nodes := mixedConfig.nodes.reverse } = .ok valid' ∧
      SameButOrder mixedConfig.nodes valid valid' := by
  have hperm : mixedConfig.nodes.reverse.Perm mixedConfig.nodes := List.reverse_perm _
  obtain ⟨hiff, hsame⟩ := acceptance_ignores_order hperm
  have hok : (validate mixedConfig).isOk := by decide +kernel
  cases hvalid : validate mixedConfig with
  | error e =>
      rw [hvalid] at hok
      cases hok
  | ok valid =>
      obtain ⟨valid', hvalid'⟩ := hiff.mpr ⟨valid, hvalid⟩
      exact ⟨hperm, valid, valid', rfl, hvalid', hsame valid valid' hvalid hvalid'⟩

end Validation

end Localnet
