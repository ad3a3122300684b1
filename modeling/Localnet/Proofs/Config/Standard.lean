import Localnet.Config.Standard
import Localnet.Proofs.Config.Spelling
import Localnet.Proofs.Network.Identity

/-!
# Documents that are made here

The documents that are written for a network id and for a path read back as that id and that path,
whatever characters the path is made of. So the standard network is accepted for every binary, as soon as
its identities are pairs: its nodes are beacons that declare nothing but the binary, and their names are
generated.
-/

namespace Localnet

open Json (Fits Value)

/-- An object without floats, whose members nest no deeper than the reader allows, reads back. -/
theorem Json.parseObject_write {members : List (String × Value)} (hordered : Members.Ordered members)
    (h : ∀ entry ∈ members, Fits (depthLimit - 1) entry.2 ∧ entry.2.isFloatFree) :
    parseObject (Value.object members).write = .ok members := by
  obtain ⟨hregular, hdepth⟩ := fits_object hordered fun entry hentry => (h entry hentry).1
  have hfree : (Value.object members).isFloatFree :=
    Value.isFloatFree_object.mpr fun entry hentry => (h entry hentry).2
  exact parseObject_eq_ok_iff.mpr (parse_written hregular hfree hdepth)

theorem Genesis.networkId_of_parseObject {text : String} {members : List (String × Value)} {id : NetworkId}
    (hread : Json.parseObject text = .ok members)
    (hid : Members.find? networkIdField members = some (idValue id)) : networkId text = .ok id := by
  have hblank : Text.allBlank text = false :=
    Json.not_allBlank_of_parse (Json.parseObject_eq_ok_iff.mp hread)
  have hvalue : asNetworkId? (idValue id) = some id := asNetworkId?_eq_some_iff.mpr rfl
  simp only [networkId, hblank, Bool.false_eq_true, if_false, hread, hid, hvalue]

theorem Genesis.networkId_localGenesis (id : NetworkId) : networkId (localGenesis id) = .ok id := by
  refine networkId_of_parseObject (Json.parseObject_write (Members.ordered_ofList _) ?_) ?_
  · refine Json.forall_mem_ofList (fun v => Fits (Json.depthLimit - 1) v ∧ v.isFloatFree) ?_
    simp only [List.forall_mem_cons]
    have hid : Fits (Json.depthLimit - 1) (idValue id) := ⟨rfl, Nat.zero_le _⟩
    exact ⟨⟨hid, rfl⟩, ⟨⟨rfl, by decide⟩, rfl⟩, ⟨⟨rfl, by decide⟩, rfl⟩, ⟨⟨rfl, by decide⟩, rfl⟩,
      ⟨⟨rfl, by decide⟩, rfl⟩, ⟨⟨rfl, by decide⟩, rfl⟩, List.forall_mem_nil _⟩
  · rw [Members.ofList]
    simp (disch := decide) only [List.foldl, Members.find?_insert_of_ne, Members.find?_insert_self]

theorem ImplDocument.parseObject_forBinary (path : String) :
    Json.parseObject (forBinary path) = .ok [(binaryPathField, .text path)] := by
  refine Json.parseObject_write (List.pairwise_singleton _ _) fun entry hentry => ?_
  rw [List.mem_singleton.mp hentry]
  exact ⟨⟨rfl, Nat.zero_le _⟩, rfl⟩

theorem ImplDocument.parse_forBinary (path node : String) :
    parse (forBinary path) node = .ok ⟨some path, .none⟩ := by
  rw [parse, parseObject_forBinary]
  rfl

/-! ### Nodes without a name -/

theorem Names.resolveFrom_unnamed {nodes : List NodeConfig} (h : ∀ node ∈ nodes, node.name = "")
    (next : Nat) : resolveFrom next nodes = (List.range' next nodes.length).map generated := by
  induction nodes generalizing next with
  | nil => rfl
  | cons node rest ih =>
      obtain ⟨hname, hrest⟩ := List.forall_mem_cons.mp h
      rw [resolveFrom, if_pos hname, ih hrest, List.length_cons, List.range'_succ, List.map_cons]

theorem Names.resolve_unnamed {nodes : List NodeConfig} (h : ∀ node ∈ nodes, node.name = "") :
    resolve nodes = (List.range nodes.length).map generated := by
  rw [resolve, resolveFrom_unnamed h, List.range_eq_range']

theorem Names.generatedCount_unnamed {nodes : List NodeConfig} (h : ∀ node ∈ nodes, node.name = "") :
    generatedCount nodes = nodes.length := by
  rw [generatedCount, List.filter_eq_self.mpr (by simpa using h)]

/-- Generated names alone never collide. -/
theorem Names.ensureUnique_unnamed {nodes : List NodeConfig} (h : ∀ node ∈ nodes, node.name = "") :
    ensureUnique (resolve nodes) = .ok () := by
  rw [ensureUnique_eq_ok_iff, resolve_unnamed h]
  exact List.nodup_range.map generated_injective

/-! ### The standard network -/

namespace Validation

theorem validateNodes_map {ι : Type} {config : NetworkConfig} {genesis : NetworkId}
    {node : ι → NodeConfig} {result : ι → ValidatedNode} {is : List ι}
    (h : ∀ i ∈ is, ∀ label,
      validateNode (node i) label (config.flagsOf (node i)) genesis = .ok (result i)) (index : Nat) :
    validateNodes config genesis index (is.map node) = .ok (is.map result) := by
  induction is generalizing index with
  | nil => rfl
  | cons i rest ih =>
      obtain ⟨hi, hrest⟩ := List.forall_mem_cons.mp h
      rw [List.map_cons, validateNodes, hi, ih hrest]
      rfl

/-- A node of the standard network, whose flags declare no settings. -/
theorem validateNode_standardNode {path : String} {identity own : StakingIdentity}
    (hpair : StakingIdentity.ofPem identity.key identity.cert = .ok own) {flags : Flags}
    {label : String} (hflags : flagSettings flags label = .ok .none) (genesis : NetworkId) :
    validateNode (NetworkConfig.standardNode path identity) label flags genesis =
      .ok ⟨⟨some path, .none⟩, .none, some own⟩ := by
  have hblank : Text.allBlank (ImplDocument.forBinary path) = false :=
    Json.not_allBlank_of_parse (Json.parseObject_eq_ok_iff.mp (ImplDocument.parseObject_forBinary path))
  have himpl : implDocument (NetworkConfig.standardNode path identity) label =
      .ok ⟨some path, .none⟩ := by
    simp only [implDocument, NetworkConfig.standardNode, Option.filter, hblank, Bool.not_false, if_true,
      ImplDocument.parse_forBinary]
  have hfile : fileSettings (NetworkConfig.standardNode path identity) label = .ok .none := rfl
  have hstaking : stakingIdentity (NetworkConfig.standardNode path identity) label = .ok (some own) :=
    stakingIdentity_eq_ok_iff.mpr (.inr ⟨own, hpair, rfl⟩)
  rw [validateNode, himpl, hfile, hflags, hstaking]
  rfl

/-- The standard network is accepted if its identities are pairs, and nothing of it is lost. -/
theorem validate_standard {path : String} {identity own : Nat → StakingIdentity}
    (hpairs : ∀ i < NetworkConfig.standardNodeCount,
      StakingIdentity.ofPem (identity i).key (identity i).cert = .ok (own i)) :
    validate (.standard path identity) = .ok
      { networkId := NetworkConfig.standardNetworkId
        names := (List.range NetworkConfig.standardNodeCount).map Names.generated
        generated := NetworkConfig.standardNodeCount
        nodes := (List.range NetworkConfig.standardNodeCount).map fun i =>
          ⟨⟨some path, .none⟩, .none, some (own i)⟩ } := by
  have hunnamed : ∀ node ∈ (NetworkConfig.standard path identity).nodes, node.name = "" := by
    intro node hnode
    obtain ⟨i, -, rfl⟩ := List.mem_map.mp hnode
    rfl
  have hlength : (NetworkConfig.standard path identity).nodes.length =
      NetworkConfig.standardNodeCount := by
    rw [NetworkConfig.standard, List.length_map, List.length_range]
  have hgenesis : Genesis.networkId (NetworkConfig.standard path identity).genesis =
      .ok NetworkConfig.standardNetworkId := Genesis.networkId_localGenesis _
  have hnodes : validateNodes (.standard path identity) NetworkConfig.standardNetworkId 0
      (NetworkConfig.standard path identity).nodes =
        .ok ((List.range NetworkConfig.standardNodeCount).map fun i =>
          ⟨⟨some path, .none⟩, .none, some (own i)⟩) :=
    -- the one flag is the log level, which is no setting
    validateNodes_map (fun i hi label =>
      validateNode_standardNode (hpairs i (List.mem_range.mp hi)) rfl _) 0
  have hbeacons : checkBeacons (NetworkConfig.standard path identity).nodes = .ok () := rfl
  simp only [validate, bind_eq_ok_iff]
  refine ⟨_, hgenesis, _, hnodes, (), hbeacons, (), Names.ensureUnique_unnamed hunnamed, ?_⟩
  rw [Names.resolve_unnamed hunnamed, Names.generatedCount_unnamed hunnamed, hlength]
  rfl

end Validation

/-- **Documents that are made here.** The genesis document of every network id gives that id. The document
of every binary gives the path of the binary, for whatever node, and declares no settings. The standard
network of a binary is accepted if its identities are pairs: all its nodes run that binary, declare no
settings and are beacons, and their names are generated. -/
theorem generated_documents_read_back :
    (∀ id, Genesis.networkId (Genesis.localGenesis id) = .ok id) ∧
    (∀ path node, ImplDocument.parse (ImplDocument.forBinary path) node = .ok ⟨some path, .none⟩) ∧
    ∀ (path : String) (identity own : Nat → StakingIdentity),
      (∀ i < NetworkConfig.standardNodeCount,
        StakingIdentity.ofPem (identity i).key (identity i).cert = .ok (own i)) →
      (∀ node ∈ (NetworkConfig.standard path identity).nodes, node.isBeacon) ∧
      ∃ valid, Validation.validate (.standard path identity) = .ok valid ∧
        valid.networkId = 1337 ∧
        valid.names = ["node-0", "node-1", "node-2", "node-3", "node-4"] ∧ valid.generated = 5 ∧
        valid.nodes.map (·.staking) = [own 0, own 1, own 2, own 3, own 4].map some ∧
        ∀ node ∈ valid.nodes, node.impl = ⟨some path, .none⟩ ∧ node.settings = .none := by
  refine ⟨Genesis.networkId_localGenesis, ImplDocument.parse_forBinary, ?_⟩
  intro path identity own hpairs
  refine ⟨fun node hnode => ?_, _, Validation.validate_standard hpairs, rfl, rfl, rfl, rfl, ?_⟩
  · obtain ⟨i, -, rfl⟩ := List.mem_map.mp hnode
    rfl
  · intro node hnode
    obtain ⟨i, -, rfl⟩ := List.mem_map.mp hnode
    exact ⟨rfl, rfl⟩

/-- A path with a quote, a backslash, a line end and a character outside the basic plane, as the binary of
nodes that all have the same pair. -/
theorem generated_documents_read_back_of_oddPath :
    (∀ i < NetworkConfig.standardNodeCount,
      StakingIdentity.ofPem p256Pair.key p256Pair.cert = .ok p256Pair) ∧
    ∃ valid, Validation.validate (.standard "/a \"b\\c\n\x7f😀" fun _ => p256Pair) = .ok valid ∧
      ∀ node ∈ valid.nodes, node.impl = ⟨some "/a \"b\\c\n\x7f😀", .none⟩ ∧ node.settings = .none := by
  have hpairs : ∀ i < NetworkConfig.standardNodeCount,
      StakingIdentity.ofPem p256Pair.key p256Pair.cert = .ok p256Pair := fun _ _ => ofPem_p256Pair
  obtain ⟨-, valid, hvalid, -, -, -, -, hnodes⟩ :=
    generated_documents_read_back.2.2 "/a \"b\\c\n\x7f😀" (fun _ => p256Pair) (fun _ => p256Pair) hpairs
  exact ⟨hpairs, valid, hvalid, hnodes⟩

end Localnet
