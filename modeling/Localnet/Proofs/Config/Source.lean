import Localnet.Config.File
import Localnet.Proofs.Config.Toml
import Localnet.Proofs.Json.Record

/-!
# Configurations as they are written

The source of a configuration is what its file says: every document within it and every flag is the value
that the file has in that place, before it is kept as text or turned into JSON. A file is read as the
configuration of its source.
-/

namespace Localnet

/-- A value as a file has it. -/
inductive Written where
  | json (v : Json.Value)
  | toml (v : Toml.Value)
  deriving DecidableEq

def Written.toJson : Written → Json.Value
  | .json v => v
  | .toml v => v.toJson

structure NodeSource where
  name : String
  isBeacon : Bool
  stakingKey : String
  stakingCert : String
  implDocument : Option Written
  configDocument : Option Written
  flags : Table Written
  deriving DecidableEq

namespace NodeSource

def empty : NodeSource := ⟨"", false, "", "", none, none, ∅⟩

/-- The node that is read from what is written. -/
def config (node : NodeSource) : NodeConfig where
  name := node.name
  isBeacon := node.isBeacon
  stakingKey := node.stakingKey
  stakingCert := node.stakingCert
  implDocument := node.implDocument.bind fun w => embedded? w.toJson
  configDocument := node.configDocument.bind fun w => embedded? w.toJson
  flags := node.flags.mapValues Written.toJson

end NodeSource

structure NetworkSource where
  name : String
  logLevel : Option String
  genesis : Option Written
  nodes : List NodeSource
  flags : Table Written
  deriving DecidableEq

namespace NetworkSource

def empty : NetworkSource := ⟨"", none, none, [], ∅⟩

def config (source : NetworkSource) : NetworkConfig where
  name := source.name
  logLevel := source.logLevel
  genesis := (source.genesis.map fun w => embedded w.toJson).getD ""
  nodes := source.nodes.map NodeSource.config
  flags := source.flags.mapValues Written.toJson

end NetworkSource

/-! ### JSON -/

def NodeSource.fields (depth : Nat) : List (Json.Field NodeSource) :=
  [.of "name" Json.text fun v node => { node with name := v },
   .of "isBeacon" Json.bool fun v node => { node with isBeacon := v },
   .of "stakingKey" Json.text fun v node => { node with stakingKey := v },
   .of "stakingCert" Json.text fun v node => { node with stakingCert := v },
   .of "implSpecificConfig" (Json.optional (Json.value depth)) fun v node =>
     { node with implDocument := v.map .json },
   .of "configFile" (Json.optional (Json.value depth)) fun v node =>
     { node with configDocument := v.map .json },
   .of "flags" (Json.table depth) fun v node => { node with flags := v.mapValues .json }]

def NodeSource.reader : (depth : Nat) → Json.Reader NodeSource :=
  Json.record "struct NodeConfig" fields empty

def NetworkSource.fields (depth : Nat) : List (Json.Field NetworkSource) :=
  [.of "name" Json.text fun v source => { source with name := v },
   .of "logLevel" (Json.optional Json.text) fun v source => { source with logLevel := v },
   .of "genesis" (Json.value depth) fun v source => { source with genesis := some (.json v) },
   .of "nodeConfigs" (Json.list NodeSource.reader depth) fun v source => { source with nodes := v },
   .of "flags" (Json.table depth) fun v source => { source with flags := v.mapValues .json }]

def NetworkSource.reader : (depth : Nat) → Json.Reader NetworkSource :=
  Json.record "struct NetworkConfig" fields empty

def NetworkSource.parse (text : String) : Except Json.Error NetworkSource :=
  Json.read (reader Json.depthLimit) text

/-! ### TOML -/

/-- The flags in a table. A date or time is a table with one member. -/
def Toml.writtenFlags? : Toml.Value → Option (Table Written)
  | .table members => some (Table.ofList (Members.mapValues .toml members))
  | .datetime s => some (Table.ofList [(Toml.Value.datetimeField, .toml (.text s))])
  | _ => none

def NodeSource.tomlFields : List (Toml.Field NodeSource) :=
  [.of "name" Toml.asText? fun v node => { node with name := v },
   .of "isBeacon" Toml.asBool? fun v node => { node with isBeacon := v },
   .of "stakingKey" Toml.asText? fun v node => { node with stakingKey := v },
   .of "stakingCert" Toml.asText? fun v node => { node with stakingCert := v },
   .of "implSpecificConfig" some fun v node => { node with implDocument := some (.toml v) },
   .of "configFile" some fun v node => { node with configDocument := some (.toml v) },
   .of "flags" Toml.writtenFlags? fun v node => { node with flags := v }]

def NetworkSource.tomlFields : List (Toml.Field NetworkSource) :=
  [.of "name" Toml.asText? fun v source => { source with name := v },
   .of "logLevel" Toml.asText? fun v source => { source with logLevel := some v },
   .of "genesis" some fun v source => { source with genesis := some (.toml v) },
   .of "nodeConfigs" (Toml.items (Toml.record NodeSource.tomlFields .empty))
     fun v source => { source with nodes := v },
   .of "flags" Toml.writtenFlags? fun v source => { source with flags := v }]

def NetworkSource.parseToml (text : String) : Option NetworkSource :=
  (Toml.parse text).bind (Toml.record tomlFields .empty)

def NetworkSource.load (path : String) (contents : Except SystemError ByteArray) :
    Except LoadError NetworkSource :=
  match (contents.mapError .system).bind fileText with
  | .error fault => .error (.unreadable path fault)
  | .ok text =>
    if Path.extension? path = some "toml" then
      match parseToml text with
      | some source => .ok source
      | none => .error (.toml path)
    else (parse text).mapError (.json path)

/-! ### Files and their sources -/

theorem mapValues_json_toJson (t : Table Json.Value) :
    (t.mapValues Written.json).mapValues Written.toJson = t :=
  (t.mapValues_mapValues ..).trans t.mapValues_id

theorem map_eq_of_forall₂ {α β : Type} {f : α → β} {as : List α} {bs : List β}
    (h : List.Forall₂ (fun a b => f a = b) as bs) : as.map f = bs := by
  induction h with
  | nil => rfl
  | cons h _ ih => rw [List.map_cons, h, ih]

section

variable {α σ τ : Type} {f : σ → τ} {put : α → σ → σ} {put' : α → τ → τ}

theorem Json.Field.alike_map {reader : Json.Reader α} {name : String}
    (hput : ∀ a record, f (put a record) = put' a (f record)) :
    Json.Field.Alike (fun record record' => f record = record') (.of name reader put)
      (.of name reader put') := by
  refine Json.Field.alike_of (.refl reader) (fun a b hab record record' hrecord => ?_) name
  subst hab hrecord
  exact hput a record

theorem Toml.Field.alike_map {decode : Toml.Value → Option α} {name : String}
    (hput : ∀ a record, f (put a record) = put' a (f record)) :
    Toml.Field.Alike (fun record record' => f record = record') (.of name decode put)
      (.of name decode put') := by
  have hdecode : ∀ v, Option.Rel Eq (decode v) (decode v) := by
    intro v
    cases decode v with
    | none => exact .none
    | some a => exact .some rfl
  refine Toml.Field.alike_of hdecode (fun a b hab record record' hrecord => ?_) name
  subst hab hrecord
  exact hput a record

end

theorem NodeSource.fields_alike (depth : Nat) :
    List.Forall₂ (Json.Field.Alike fun source node => NodeSource.config source = node)
      (NodeSource.fields depth) (NodeConfig.fields depth) :=
  .cons (Json.Field.alike_map fun _ _ => rfl) <|
  .cons (Json.Field.alike_map fun _ _ => rfl) <|
  .cons (Json.Field.alike_map fun _ _ => rfl) <|
  .cons (Json.Field.alike_map fun _ _ => rfl) <|
  .cons (Json.Field.alike_map fun v _ => by cases v <;> rfl) <|
  .cons (Json.Field.alike_map fun v _ => by cases v <;> rfl) <|
  .cons (Json.Field.alike_map fun flags source =>
    congrArg (fun flags => { source.config with flags }) (mapValues_json_toJson flags)) .nil

theorem NodeSource.readAlike (depth : Nat) :
    Json.ReadAlike (fun source node => NodeSource.config source = node) (NodeSource.reader depth)
      (NodeConfig.reader depth) :=
  Json.readAlike_record NodeSource.fields_alike rfl _ depth

theorem NetworkSource.fields_alike (depth : Nat) :
    List.Forall₂ (Json.Field.Alike fun source config => NetworkSource.config source = config)
      (NetworkSource.fields depth) (NetworkConfig.fields depth) := by
  have hnodes := Json.readAlike_list NodeSource.readAlike depth
  refine .cons (Json.Field.alike_map fun _ _ => rfl) <|
    .cons (Json.Field.alike_map fun _ _ => rfl) <|
    .cons (Json.Field.alike_map fun _ _ => rfl) <|
    .cons (Json.Field.alike_of hnodes (fun nodes nodes' h source config hconfig => ?_) _) <|
    .cons (Json.Field.alike_map fun flags source =>
      congrArg (fun flags => { source.config with flags }) (mapValues_json_toJson flags)) .nil
  subst hconfig
  exact congrArg (fun nodes => { source.config with nodes }) (map_eq_of_forall₂ h)

theorem NetworkSource.readAlike (depth : Nat) :
    Json.ReadAlike (fun source config => NetworkSource.config source = config)
      (NetworkSource.reader depth) (NetworkConfig.reader depth) :=
  Json.readAlike_record NetworkSource.fields_alike rfl _ depth

/-- A JSON document is read as the configuration of its source. -/
theorem NetworkConfig.parse_eq (text : String) :
    NetworkConfig.parse text = (NetworkSource.parse text).map NetworkSource.config :=
  Json.read_eq_map (NetworkSource.readAlike Json.depthLimit) text

theorem Toml.writtenFlags_alike (v : Toml.Value) :
    Option.Rel (fun written flags => written.mapValues Written.toJson = flags) (Toml.writtenFlags? v)
      (Toml.asFlags? v) := by
  cases v with
  | table members =>
      refine .some ?_
      have hmembers : Members.mapValues Written.toJson (Members.mapValues .toml members) =
          Toml.Value.toJsonMembers members := by
        rw [Toml.toJsonMembers_eq_mapValues]
        exact List.map_map ..
      rw [← Table.ofList_mapValues, hmembers]
      exact Table.ext (Members.ofList_of_ordered (Members.ordered_ofList _)).symm
  | datetime s => exact .some rfl
  | float x =>
      unfold Toml.asFlags? Toml.Value.toJson
      by_cases hx : x.isFinite
      · rw [if_pos hx]
        exact .none
      · rw [if_neg hx]
        exact .none
  | text s => exact .none
  | int n => exact .none
  | bool b => exact .none
  | list items => exact .none

theorem NodeSource.tomlFields_alike :
    List.Forall₂ (Toml.Field.Alike fun source node => NodeSource.config source = node)
      NodeSource.tomlFields NodeConfig.tomlFields := by
  refine .cons (Toml.Field.alike_map fun _ _ => rfl) <|
    .cons (Toml.Field.alike_map fun _ _ => rfl) <|
    .cons (Toml.Field.alike_map fun _ _ => rfl) <|
    .cons (Toml.Field.alike_map fun _ _ => rfl) <|
    .cons (Toml.Field.alike_map fun _ _ => rfl) <|
    .cons (Toml.Field.alike_map fun _ _ => rfl) <|
    .cons (Toml.Field.alike_of Toml.writtenFlags_alike (fun flags flags' h source node hnode => ?_) _) .nil
  subst h hnode
  rfl

theorem NetworkSource.tomlFields_alike :
    List.Forall₂ (Toml.Field.Alike fun source config => NetworkSource.config source = config)
      NetworkSource.tomlFields NetworkConfig.tomlFields := by
  have hnodes := Toml.items_alike (Toml.record_alike NodeSource.tomlFields_alike
    (show NodeSource.empty.config = NodeConfig.empty from rfl))
  refine .cons (Toml.Field.alike_map fun _ _ => rfl) <|
    .cons (Toml.Field.alike_map fun _ _ => rfl) <|
    .cons (Toml.Field.alike_map fun _ _ => rfl) <|
    .cons (Toml.Field.alike_of hnodes (fun nodes nodes' h source config hconfig => ?_) _) <|
    .cons (Toml.Field.alike_of Toml.writtenFlags_alike (fun flags flags' h source config hconfig => ?_) _)
      .nil
  · subst hconfig
    exact congrArg (fun nodes => { source.config with nodes }) (map_eq_of_forall₂ h)
  · subst h hconfig
    rfl

theorem NetworkConfig.parseToml_eq (text : String) :
    NetworkConfig.parseToml text = (NetworkSource.parseToml text).map NetworkSource.config := by
  unfold NetworkConfig.parseToml NetworkSource.parseToml
  cases Toml.parse text with
  | none => rfl
  | some v =>
      have halike := Toml.record_alike NetworkSource.tomlFields_alike
        (show NetworkSource.empty.config = NetworkConfig.empty from rfl) v
      change Toml.record NetworkConfig.tomlFields .empty v =
        (Toml.record NetworkSource.tomlFields .empty v).map NetworkSource.config
      generalize Toml.record NetworkSource.tomlFields .empty v = source at halike ⊢
      generalize Toml.record NetworkConfig.tomlFields .empty v = config at halike ⊢
      cases halike with
      | none => rfl
      | some h => exact congrArg some h.symm

/-- A file is loaded as the configuration of its source. -/
theorem NetworkConfig.load_eq (path : String) (contents : Except SystemError ByteArray) :
    NetworkConfig.load path contents =
      (NetworkSource.load path contents).map NetworkSource.config := by
  unfold NetworkConfig.load NetworkSource.load
  cases (contents.mapError FileFault.system).bind fileText with
  | error fault => rfl
  | ok text =>
      dsimp only
      rw [NetworkConfig.parse_eq, NetworkConfig.parseToml_eq]
      split
      · cases NetworkSource.parseToml text <;> rfl
      · cases NetworkSource.parse text <;> rfl

/-! ### What a file can hold -/

/-- What holds of every document that is written for a node. -/
def NodeSource.Documents (good : Json.Value → Prop) (node : NodeSource) : Prop :=
  (∀ w ∈ node.implDocument, good w.toJson) ∧ ∀ w ∈ node.configDocument, good w.toJson

def NetworkSource.Documents (good : Json.Value → Prop) (source : NetworkSource) : Prop :=
  ∀ node ∈ source.nodes, node.Documents good

/-- The documents and flags of a node are values that so many open brackets leave room for. -/
def NodeSource.Fits (depth : Nat) (node : NodeSource) : Prop :=
  node.Documents (Json.Fits depth) ∧
    Json.Fits depth (.object (node.flags.mapValues Written.toJson).entries)

/-- The nodes of a network stand two brackets further in than its genesis and its flags. -/
def NetworkSource.Fits (depth : Nat) (source : NetworkSource) : Prop :=
  (∀ w ∈ source.genesis, Json.Fits (depth + 2) w.toJson) ∧
    (∀ node ∈ source.nodes, node.Fits depth) ∧
    Json.Fits (depth + 2) (.object (source.flags.mapValues Written.toJson).entries)

theorem fits_no_flags (depth : Nat) :
    Json.Fits (depth + 1) (.object ((∅ : Table Written).mapValues Written.toJson).entries) :=
  Json.fits_object List.Pairwise.nil nofun

theorem fits_map_json {depth : Nat} {v : Option Json.Value} (hv : ∀ a ∈ v, Json.Fits depth a) :
    ∀ w ∈ v.map Written.json, Json.Fits depth w.toJson := by
  intro w hw
  obtain ⟨a, ha, rfl⟩ := Option.map_eq_some_iff.mp hw
  exact hv a ha

open Json (Yields) in
theorem NodeSource.yields_reader (depth : Nat) :
    Yields (NodeSource.reader (depth + 2)) (NodeSource.Fits (depth + 1)) := by
  have hdocument := Json.yields_optional (Json.yields_value (depth + 1))
  refine Json.yields_record (fun d hd => ?_) ⟨⟨nofun, nofun⟩, fits_no_flags depth⟩
  obtain rfl : d = depth + 1 := by omega
  simp only [NodeSource.fields, List.forall_mem_cons, List.not_mem_nil, false_imp_iff, implies_true,
    and_true]
  refine ⟨?_, ?_, ?_, ?_, ?_, ?_, ?_⟩
  · exact Json.Field.keeps_of .trivial fun _ _ node h => h
  · exact Json.Field.keeps_of .trivial fun _ _ node h => h
  · exact Json.Field.keeps_of .trivial fun _ _ node h => h
  · exact Json.Field.keeps_of .trivial fun _ _ node h => h
  · exact Json.Field.keeps_of hdocument fun v hv node h => ⟨⟨fits_map_json hv, h.1.2⟩, h.2⟩
  · exact Json.Field.keeps_of hdocument fun v hv node h => ⟨⟨h.1.1, fits_map_json hv⟩, h.2⟩
  · refine Json.Field.keeps_of (Json.yields_table _) fun flags hflags node h => ⟨h.1, ?_⟩
    dsimp only
    rwa [mapValues_json_toJson]

open Json (Yields) in
theorem NetworkSource.yields_reader (depth : Nat) :
    Yields (NetworkSource.reader (depth + 4)) (NetworkSource.Fits (depth + 1)) := by
  have hnodes : Yields (Json.list NodeSource.reader (depth + 3))
      fun nodes => ∀ node ∈ nodes, node.Fits (depth + 1) := by
    refine Json.yields_list fun d hd => ?_
    obtain rfl : d = depth + 2 := by omega
    exact NodeSource.yields_reader depth
  refine Json.yields_record (fun d hd => ?_) ⟨nofun, nofun, fits_no_flags (depth + 2)⟩
  obtain rfl : d = depth + 3 := by omega
  simp only [NetworkSource.fields, List.forall_mem_cons, List.not_mem_nil, false_imp_iff, implies_true,
    and_true]
  refine ⟨?_, ?_, ?_, ?_, ?_⟩
  · exact Json.Field.keeps_of .trivial fun _ _ source h => h
  · exact Json.Field.keeps_of .trivial fun _ _ source h => h
  · refine Json.Field.keeps_of (Json.yields_value _) fun v hv source h => ⟨fun w hw => ?_, h.2⟩
    cases hw
    exact hv
  · exact Json.Field.keeps_of hnodes fun nodes hnodes source h => ⟨h.1, hnodes, h.2.2⟩
  · refine Json.Field.keeps_of (Json.yields_table _) fun flags hflags source h => ⟨h.1, h.2.1, ?_⟩
    dsimp only
    rwa [mapValues_json_toJson]

/-- What is written in a JSON document that is read leaves room for the brackets around it. -/
theorem NetworkSource.fits_of_parse {text : String} {source : NetworkSource}
    (h : NetworkSource.parse text = .ok source) : source.Fits (Json.depthLimit - 3) :=
  Json.yields_read (NetworkSource.yields_reader 123) h

/-- Documents in a TOML document are values that JSON can hold, if at any depth. -/
theorem NodeSource.regular_of_toml {v : Toml.Value} {node : NodeSource}
    (h : Toml.record NodeSource.tomlFields .empty v = some node) :
    node.Documents fun v => v.isRegular := by
  refine Toml.record_keeps ?_ ⟨nofun, nofun⟩ h
  have hwritten : ∀ v : Toml.Value, ∀ w ∈ some (Written.toml v), w.toJson.isRegular := by
    intro v w hw
    cases hw
    exact Toml.isRegular_toJson v
  simp only [NodeSource.tomlFields, List.forall_mem_cons, List.not_mem_nil, false_imp_iff, implies_true,
    and_true]
  -- one goal for each field; the fields that hold no document leave both as they are
  refine ⟨?_, ?_, ?_, ?_, ?_, ?_, ?_⟩
  · exact Toml.Field.keeps_of fun _ _ _ node h => h
  · exact Toml.Field.keeps_of fun _ _ _ node h => h
  · exact Toml.Field.keeps_of fun _ _ _ node h => h
  · exact Toml.Field.keeps_of fun _ _ _ node h => h
  · exact Toml.Field.keeps_of fun _ v _ node h => ⟨hwritten v, h.2⟩
  · exact Toml.Field.keeps_of fun _ v _ node h => ⟨h.1, hwritten v⟩
  · exact Toml.Field.keeps_of fun _ _ _ node h => h

theorem NetworkSource.regular_of_toml {v : Toml.Value} {source : NetworkSource}
    (h : Toml.record NetworkSource.tomlFields .empty v = some source) :
    source.Documents fun v => v.isRegular := by
  refine Toml.record_keeps ?_ (List.forall_mem_nil _) h
  simp only [NetworkSource.tomlFields, List.forall_mem_cons, List.not_mem_nil, false_imp_iff, implies_true,
    and_true]
  refine ⟨?_, ?_, ?_, ?_, ?_⟩
  · exact Toml.Field.keeps_of fun _ _ _ source h => h
  · exact Toml.Field.keeps_of fun _ _ _ source h => h
  · exact Toml.Field.keeps_of fun _ _ _ source h => h
  · refine Toml.Field.keeps_of fun v nodes hnodes source h => ?_
    exact Toml.items_keep (fun _ _ => NodeSource.regular_of_toml) hnodes
  · exact Toml.Field.keeps_of fun _ _ _ source h => h

theorem NetworkSource.regular_of_load {path : String} {contents : Except SystemError ByteArray}
    {source : NetworkSource} (h : NetworkSource.load path contents = .ok source) :
    source.Documents fun v => v.isRegular := by
  unfold NetworkSource.load at h
  split at h
  · cases h
  next text _ =>
    split at h
    · split at h
      next read hread =>
        cases h
        obtain ⟨v, -, hrecord⟩ := Option.bind_eq_some_iff.mp hread
        exact NetworkSource.regular_of_toml hrecord
      next => cases h
    · cases hread : NetworkSource.parse text with
      | error e =>
          rw [hread] at h
          cases h
      | ok read =>
          rw [hread] at h
          cases h
          intro node hnode
          have hdocuments := ((NetworkSource.fits_of_parse hread).2.1 node hnode).1
          exact ⟨fun w hw => (hdocuments.1 w hw).1, fun w hw => (hdocuments.2 w hw).1⟩

end Localnet
