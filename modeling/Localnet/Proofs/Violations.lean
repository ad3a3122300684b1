import Localnet.Proofs.Settings
import Localnet.Proofs.Validation

/-!
# What is wrong with a configuration

`violations` lists everything that is wrong with a configuration, each thing judged by itself: first
the genesis document, then node by node the document of the implementation, the config file, the
flags, the network ids and the staking pair, then the beacons and the names. A configuration is
accepted if the list is empty, and refused for the first thing on it.
-/

namespace Localnet

open Json (Value)

abbrev Fields := String → Option Value

namespace Fields

/-- A field that is missing or `null` declares nothing. -/
def WellTyped (get : Fields) (field : String) (kind : FieldKind) : Prop :=
  ∀ v ∈ get field, v = .null ∨ kind.Holds v

instance (get : Fields) (field : String) (kind : FieldKind) :
    Decidable (get.WellTyped field kind) :=
  inferInstanceAs (Decidable (∀ v ∈ get field, v = .null ∨ kind.Holds v))

def settings : List (String × FieldKind) :=
  [("network-id", .networkId), ("db-dir", .text), ("log-dir", .text), ("http-port", .port),
    ("staking-port", .port)]

/-- The fields of the document of an implementation, in the order in which they are read. -/
def ofImpl : List (String × FieldKind) := ("binaryPath", .text) :: settings

def faults (get : Fields) (source : SettingsSource) (fields : List (String × FieldKind)) :
    List FieldFault :=
  (fields.filter fun field => ¬ get.WellTyped field.1 field.2).map fun field =>
    ⟨source, field.1, field.2⟩

def ofMembers (members : List (String × Value)) : Fields := fun field => Members.find? field members

/-- The network id that the fields declare. -/
def networkId? (get : Fields) : Option NetworkId := (get "network-id").bind asNetworkId?

end Fields

/-- The node that an error is about, by its label. -/
def ValidationError.node? : ValidationError → Option String
  | .missingImplDocument node | .malformedImplDocument node _ | .malformedConfigFile node _
  | .fieldType node _ | .networkIdMismatch node _ _ | .stakingKeyWithoutCert node
  | .stakingCertWithoutKey node | .invalidStakingPair node _ => some node
  | .missingGenesis | .malformedGenesis _ | .missingNetworkId | .networkIdType _ | .noBeacon
  | .duplicateName _ => none

namespace Validation

/-! ### What is wrong, thing by thing -/

def implViolations (node : NodeConfig) (label : String) : List ValidationError :=
  match node.implDocument.filter (!Text.allBlank ·) with
  | none => [.missingImplDocument label]
  | some text =>
    match Json.parseObject text with
    | .error fault => [.malformedImplDocument label fault]
    | .ok members =>
      ((Fields.ofMembers members).faults .implDocument Fields.ofImpl).map (.fieldType label)

def fileViolations (node : NodeConfig) (label : String) : List ValidationError :=
  match node.configFile? with
  | none => []
  | some text =>
    match Json.parseObject text with
    | .error fault => [.malformedConfigFile label fault]
    | .ok members =>
      ((Fields.ofMembers members).faults .configFile Fields.settings).map (.fieldType label)

def flagViolations (flags : Flags) (label : String) : List ValidationError :=
  (Fields.faults flags.get? .flags Fields.settings).map (.fieldType label)

/-- The fields that a document has; a text that is no object has none. -/
def documentFields (text : Option String) : Fields := fun field => do
  let members ← (Json.parseObject (← text)).toOption
  Members.find? field members

/-- The layers that a node's settings are declared in, the highest first. -/
def layersOf (node : NodeConfig) (flags : Flags) : List Fields :=
  [flags.get?, documentFields node.configFile?, documentFields node.implDocument]

def idViolations (node : NodeConfig) (label : String) (flags : Flags) (genesis : NetworkId) :
    List ValidationError :=
  (((layersOf node flags).filterMap Fields.networkId?).filter (· ≠ genesis)).map
    (.networkIdMismatch label genesis)

def stakingViolations (node : NodeConfig) (label : String) : List ValidationError :=
  if node.stakingKey = "" ∧ node.stakingCert = "" then []
  else if node.stakingCert = "" then [.stakingKeyWithoutCert label]
  else if node.stakingKey = "" then [.stakingCertWithoutKey label]
  else
    match StakingIdentity.ofPem node.stakingKey node.stakingCert with
    | .ok _ => []
    | .error fault => [.invalidStakingPair label fault]

def nodeViolations (node : NodeConfig) (label : String) (flags : Flags) (genesis : NetworkId) :
    List ValidationError :=
  implViolations node label ++ fileViolations node label ++ flagViolations flags label ++
    idViolations node label flags genesis ++ stakingViolations node label

def beaconViolations (nodes : List NodeConfig) : List ValidationError :=
  if nodes = [] ∨ ∃ node ∈ nodes, node.isBeacon then [] else [.noBeacon]

/-- The names that stand further ahead as well, where they come again. -/
def nameViolations (names : List String) : List ValidationError :=
  (names.zipIdx.filter fun entry => entry.1 ∈ names.take entry.2).map (.duplicateName ·.1)

/-- All that is wrong with a configuration, in the order in which it is reported. Without a network id
nothing is said about the rest. -/
def violations (config : NetworkConfig) : List ValidationError :=
  match Genesis.networkId config.genesis with
  | .error e => [e]
  | .ok genesis =>
    (config.nodes.zipIdx.flatMap fun (node, index) =>
      nodeViolations node (node.label index) (config.flagsOf node) genesis) ++
    beaconViolations config.nodes ++ nameViolations (Names.resolve config.nodes)

/-! ### Checks that report the first of some violations -/

/-- A check that fails with the first thing on a list, and succeeds if there is none. -/
def Reports {ε α : Type} (check : Except ε α) (faults : List ε) : Prop :=
  match check with
  | .ok _ => faults = []
  | .error e => faults.head? = some e

namespace Reports

variable {ε ε' α β : Type} {check : Except ε α} {faults : List ε}

theorem bind {next : α → Except ε β} {more : List ε} (h : Reports check faults)
    (hnext : ∀ a, check = .ok a → Reports (next a) more) :
    Reports (check >>= next) (faults ++ more) := by
  cases check with
  | ok a =>
      have hnil : faults = [] := h
      rw [hnil]
      exact hnext a rfl
  | error e =>
      have hhead : faults.head? = some e := h
      change (faults ++ more).head? = some e
      rw [List.head?_append, hhead]
      rfl

theorem map {f : α → β} (h : Reports check faults) : Reports (f <$> check) faults := by
  cases check <;> exact h

theorem mapError {f : ε → ε'} (h : Reports check faults) :
    Reports (check.mapError f) (faults.map f) := by
  cases check with
  | ok a =>
      have hnil : faults = [] := h
      rw [hnil]
      rfl
  | error e =>
      have hhead : faults.head? = some e := h
      change (faults.map f).head? = some (f e)
      rw [List.head?_map, hhead]
      rfl

theorem eq_error_iff (h : Reports check faults) (e : ε) :
    check = .error e ↔ faults.head? = some e := by
  cases check with
  | ok a =>
      have hnil : faults = [] := h
      simp [hnil]
  | error e' =>
      have hhead : faults.head? = some e' := h
      simp [hhead]

theorem exists_ok_iff (h : Reports check faults) : (∃ a, check = .ok a) ↔ faults = [] := by
  cases check with
  | ok a =>
      have hnil : faults = [] := h
      simp [hnil]
  | error e =>
      have hhead : faults.head? = some e := h
      have hne : faults ≠ [] := by
        rintro rfl
        cases hhead
      simp [hne]

end Reports

/-! ### Settings -/

theorem faults_cons (get : Fields) (source : SettingsSource) (field : String × FieldKind)
    (fields : List (String × FieldKind)) :
    get.faults source (field :: fields) =
      (if get.WellTyped field.1 field.2 then [] else [⟨source, field.1, field.2⟩]) ++
        get.faults source fields := by
  by_cases h : get.WellTyped field.1 field.2 <;> simp [Fields.faults, h]

variable {get : Fields} {source : SettingsSource} {field label : String} {kind : FieldKind}

theorem reports_declared? {α : Type} {decode : Value → Option α}
    (hdecode : ∀ v, (decode v).isSome ↔ kind.Holds v) :
    Reports (declared? get source field kind decode)
      (if get.WellTyped field kind then [] else [⟨source, field, kind⟩]) := by
  unfold declared?
  split
  next hget =>
    have hwell : get.WellTyped field kind := by simp [Fields.WellTyped, hget]
    simp [hwell, Reports]
  next hget =>
    have hwell : get.WellTyped field kind := by simp [Fields.WellTyped, hget]
    simp [hwell, Reports]
  next v hnull hget =>
    have hwell : get.WellTyped field kind ↔ (decode v).isSome := by
      have hne : v ≠ .null := hnull
      simp [Fields.WellTyped, hget, hne, hdecode]
    cases hv : decode v with
    | some a => simp [hwell, hv, Reports]
    | none => simp [hwell, hv, Reports]

theorem reports_decode : Reports (NodeSettings.decode get source) (get.faults source Fields.settings) := by
  simp only [NodeSettings.decode, Fields.settings, faults_cons]
  refine (reports_declared? fun _ => asNetworkId?_isSome_iff).bind fun networkId _ => ?_
  refine (reports_declared? fun _ => asText?_isSome_iff).bind fun dbDir _ => ?_
  refine (reports_declared? fun _ => asText?_isSome_iff).bind fun logDir _ => ?_
  refine (reports_declared? fun _ => asPort?_isSome_iff).bind fun httpPort _ => ?_
  exact (reports_declared? fun _ => asPort?_isSome_iff).bind fun stakingPort _ => rfl

theorem reports_ofMembers {members : List (String × Value)} :
    Reports (NodeSettings.ofMembers members source)
      ((Fields.ofMembers members).faults source Fields.settings) :=
  reports_decode

/-- A declared network id is the one that the field holds. -/
theorem networkId_of_decode {settings : NodeSettings}
    (h : NodeSettings.decode get source = .ok settings) : settings.networkId = get.networkId? := by
  simp only [NodeSettings.decode, bind_eq_ok_iff] at h
  obtain ⟨networkId, hid, _, _, _, _, _, _, _, _, heq⟩ := h
  cases heq
  unfold declared? at hid
  unfold Fields.networkId?
  split at hid
  next hget =>
    cases hid
    rw [hget]
    rfl
  next hget =>
    cases hid
    rw [hget]
    rfl
  next v hnull hget =>
    rw [hget, Option.bind_some]
    cases hv : asNetworkId? v with
    | some id =>
        rw [hv] at hid
        cases hid
        rfl
    | none =>
        rw [hv] at hid
        cases hid

/-! ### One node -/

theorem reports_implDocument (node : NodeConfig) (label : String) :
    Reports (implDocument node label) (implViolations node label) := by
  unfold implDocument implViolations
  cases node.implDocument.filter (!Text.allBlank ·) with
  | none => rfl
  | some text =>
      unfold ImplDocument.parse
      dsimp only
      cases Json.parseObject text with
      | error fault => rfl
      | ok members =>
          refine Reports.mapError ?_
          rw [Fields.ofImpl, faults_cons]
          refine (reports_declared? fun _ => asText?_isSome_iff).bind fun binaryPath _ => ?_
          exact reports_ofMembers.map

theorem reports_fileSettings (node : NodeConfig) (label : String) :
    Reports (fileSettings node label) (fileViolations node label) := by
  unfold fileSettings fileViolations
  cases node.configFile? with
  | none => rfl
  | some text =>
      unfold NodeSettings.ofConfigFile
      dsimp only
      cases Json.parseObject text with
      | error fault => rfl
      | ok members => exact reports_ofMembers.mapError

theorem reports_flagSettings (flags : Flags) (label : String) :
    Reports (flagSettings flags label) (flagViolations flags label) :=
  reports_decode.mapError

theorem reports_stakingIdentity (node : NodeConfig) (label : String) :
    Reports (stakingIdentity node label) (stakingViolations node label) := by
  unfold stakingIdentity stakingViolations
  by_cases hkey : node.stakingKey = "" <;> by_cases hcert : node.stakingCert = ""
  · simp [hkey, hcert, Reports]
  · simp [hkey, hcert, Reports]
  · simp [hkey, hcert, Reports]
  · simp only [hkey, hcert, if_false, and_self]
    cases StakingIdentity.ofPem node.stakingKey node.stakingCert <;> rfl

/-- The ids that are compared are those of the three layers. -/
theorem reports_checkNetworkId (genesis : NetworkId) (declared : List (Option NetworkId))
    (label : String) :
    Reports (checkNetworkId genesis declared label)
      (((declared.filterMap id).filter (· ≠ genesis)).map (.networkIdMismatch label genesis)) := by
  unfold checkNetworkId
  rw [← List.head?_filter]
  cases (declared.filterMap id).filter (· ≠ genesis) with
  | nil => rfl
  | cons other rest => rfl

theorem mapError_eq_ok_iff {ε ε' α : Type} {check : Except ε α} {f : ε → ε'} {a : α} :
    check.mapError f = .ok a ↔ check = .ok a := by
  cases check <;> simp [Except.mapError]

theorem documentFields_of_parse {text : String} {members : List (String × Value)}
    (h : Json.parseObject text = .ok members) :
    documentFields (some text) = Fields.ofMembers members := by
  funext field
  simp [documentFields, h, Except.toOption, Fields.ofMembers]

/-- The settings of an implementation are those that its document declares. -/
theorem decode_of_implDocument {node : NodeConfig} {impl : ImplDocument}
    (h : implDocument node label = .ok impl) :
    NodeSettings.decode (documentFields node.implDocument) .implDocument = .ok impl.settings := by
  unfold implDocument at h
  split at h
  next => cases h
  next text htext =>
    obtain ⟨htext, -⟩ := Option.filter_eq_some_iff.mp htext
    unfold ImplDocument.parse at h
    split at h
    next => cases h
    next members hmembers =>
      simp only [mapError_eq_ok_iff, ImplDocument.ofMembers, bind_eq_ok_iff] at h
      obtain ⟨binaryPath, -, settings, hsettings, heq⟩ := h
      cases heq
      rw [htext, documentFields_of_parse hmembers]
      exact hsettings

theorem decode_of_fileSettings {node : NodeConfig} {settings : NodeSettings}
    (h : fileSettings node label = .ok settings) :
    NodeSettings.decode (documentFields node.configFile?) .configFile = .ok settings := by
  unfold fileSettings at h
  split at h
  next hnone =>
    cases h
    rw [hnone]
    rfl
  next text htext =>
    unfold NodeSettings.ofConfigFile at h
    split at h
    next => cases h
    next members hmembers =>
      rw [htext, documentFields_of_parse hmembers]
      exact mapError_eq_ok_iff.mp h

theorem reports_validateNode (node : NodeConfig) (label : String) (flags : Flags)
    (genesis : NetworkId) :
    Reports (validateNode node label flags genesis) (nodeViolations node label flags genesis) := by
  simp only [validateNode, nodeViolations, List.append_assoc]
  refine (reports_implDocument node label).bind fun impl himpl => ?_
  refine (reports_fileSettings node label).bind fun fromFile hfile => ?_
  refine (reports_flagSettings flags label).bind fun fromFlags hflags => ?_
  have hids : [fromFlags.networkId, fromFile.networkId, impl.settings.networkId].filterMap id =
      (layersOf node flags).filterMap Fields.networkId? := by
    calc [fromFlags.networkId, fromFile.networkId, impl.settings.networkId].filterMap id
        = ((layersOf node flags).map Fields.networkId?).filterMap id := by
          rw [networkId_of_decode (mapError_eq_ok_iff.mp hflags),
            networkId_of_decode (decode_of_fileSettings hfile),
            networkId_of_decode (decode_of_implDocument himpl)]
          rfl
      _ = (layersOf node flags).filterMap Fields.networkId? := by
          rw [List.filterMap_map]
          rfl
  have hcheck := reports_checkNetworkId genesis
    [fromFlags.networkId, fromFile.networkId, impl.settings.networkId] label
  rw [hids] at hcheck
  refine hcheck.bind fun _ _ => ?_
  exact (reports_stakingIdentity node label).map

/-! ### The whole configuration -/

theorem reports_validateNodes (config : NetworkConfig) (genesis : NetworkId) (index : Nat)
    (nodes : List NodeConfig) :
    Reports (validateNodes config genesis index nodes)
      ((nodes.zipIdx index).flatMap fun (node, index) =>
        nodeViolations node (node.label index) (config.flagsOf node) genesis) := by
  induction nodes generalizing index with
  | nil => rfl
  | cons node rest ih =>
      rw [validateNodes, List.zipIdx_cons, List.flatMap_cons]
      refine (reports_validateNode _ _ _ _).bind fun first _ => ?_
      exact (ih (index + 1)).map

theorem reports_checkBeacons (nodes : List NodeConfig) :
    Reports (checkBeacons nodes) (beaconViolations nodes) := by
  unfold checkBeacons beaconViolations
  by_cases hnil : nodes = []
  · simp [hnil, Reports]
  · by_cases hbeacon : ∃ node ∈ nodes, node.isBeacon
    · simp [hnil, hbeacon, Reports]
    · simp [hnil, hbeacon, Reports]

/-- The names that are checked stand behind those that were seen. -/
theorem reports_ensureUniqueAfter {seen before rest : List String}
    (hseen : ∀ name, name ∈ seen ↔ name ∈ before) :
    Reports (Names.ensureUniqueAfter seen rest)
      (((rest.zipIdx before.length).filter fun entry =>
        entry.1 ∈ (before ++ rest).take entry.2).map (.duplicateName ·.1)) := by
  induction rest generalizing seen before with
  | nil => rfl
  | cons name rest ih =>
      have hseen' : ∀ other, other ∈ name :: seen ↔ other ∈ before ++ [name] := by
        intro other
        simp [hseen, or_comm]
      have hrest := ih hseen'
      rw [List.append_assoc, List.singleton_append, List.length_append, List.length_singleton] at hrest
      rw [Names.ensureUniqueAfter, List.zipIdx_cons, List.filter_cons]
      by_cases hname : name ∈ before
      · simp [hseen, hname, Reports]
      · simpa [hseen, hname] using hrest

theorem reports_ensureUnique (names : List String) :
    Reports (Names.ensureUnique names) (nameViolations names) := by
  have hseen : ∀ name, name ∈ ([] : List String) ↔ name ∈ [] := fun _ => Iff.rfl
  exact reports_ensureUniqueAfter hseen

theorem reports_validate (config : NetworkConfig) : Reports (validate config) (violations config) := by
  unfold validate violations
  cases Genesis.networkId config.genesis with
  | error e => rfl
  | ok genesis =>
      dsimp only
      rw [List.append_assoc]
      refine (reports_validateNodes config genesis 0 config.nodes).bind fun nodes _ => ?_
      refine (reports_checkBeacons config.nodes).bind fun _ _ => ?_
      exact (reports_ensureUnique _).map

/-! ### Well-formed configurations -/

/-- A layer that is well typed and declares no other network id than the network's. -/
structure Sound (fields : List (String × FieldKind)) (genesis : NetworkId) (get : Fields) : Prop where
  typed : ∀ field ∈ fields, get.WellTyped field.1 field.2
  networkId : ∀ id, get "network-id" = some (Genesis.idValue id) → id = genesis

structure WellFormedNode (genesis : NetworkId) (flags : Flags) (node : NodeConfig) : Prop where
  impl : ∃ text members, node.implDocument = some text ∧ ¬ Text.allBlank text ∧
    Json.parseObject text = .ok members ∧ Sound Fields.ofImpl genesis (Fields.ofMembers members)
  file : ∀ text, node.configDocument = some text → text ≠ "" → ∃ members,
    Json.parseObject text = .ok members ∧ Sound Fields.settings genesis (Fields.ofMembers members)
  flags : Sound Fields.settings genesis flags.get?
  staking : (node.stakingKey = "" ∧ node.stakingCert = "") ∨
    ∃ identity, StakingIdentity.ofPem node.stakingKey node.stakingCert = .ok identity

structure WellFormed (config : NetworkConfig) : Prop where
  nodes : ∃ genesis, Genesis.networkId config.genesis = .ok genesis ∧
    ∀ node ∈ config.nodes, WellFormedNode genesis (config.flagsOf node) node
  beacons : config.nodes = [] ∨ ∃ node ∈ config.nodes, node.isBeacon
  names : (Names.resolve config.nodes).Nodup

theorem faults_eq_nil_iff {fields : List (String × FieldKind)} :
    get.faults source fields = [] ↔ ∀ field ∈ fields, get.WellTyped field.1 field.2 := by
  simp [Fields.faults]

theorem networkId?_eq_some_iff {id : NetworkId} :
    get.networkId? = some id ↔ get "network-id" = some (Genesis.idValue id) := by
  simp [Fields.networkId?, Option.bind_eq_some_iff, asNetworkId?_eq_some_iff]

theorem implViolations_eq_nil_iff {node : NodeConfig} :
    implViolations node label = [] ↔
      ∃ text members, node.implDocument = some text ∧ ¬ Text.allBlank text ∧
        Json.parseObject text = .ok members ∧
        ∀ field ∈ Fields.ofImpl, (Fields.ofMembers members).WellTyped field.1 field.2 := by
  unfold implViolations
  cases hdocument : node.implDocument with
  | none => simp
  | some text =>
      by_cases hblank : Text.allBlank text
      · simp [Option.filter, hblank]
      · cases hparse : Json.parseObject text with
        | error fault => simp [Option.filter, hblank, hparse]
        | ok members => simp [Option.filter, hblank, hparse, faults_eq_nil_iff]

theorem fileViolations_eq_nil_iff {node : NodeConfig} :
    fileViolations node label = [] ↔
      ∀ text, node.configDocument = some text → text ≠ "" → ∃ members,
        Json.parseObject text = .ok members ∧
        ∀ field ∈ Fields.settings, (Fields.ofMembers members).WellTyped field.1 field.2 := by
  unfold fileViolations NodeConfig.configFile?
  cases hdocument : node.configDocument with
  | none => simp
  | some text =>
      by_cases hempty : text = ""
      · simp [Option.filter, hempty]
      · cases hparse : Json.parseObject text with
        | error fault => simp [Option.filter, hempty, hparse]
        | ok members => simp [Option.filter, hempty, hparse, faults_eq_nil_iff]

theorem idViolations_eq_nil_iff {node : NodeConfig} {flags : Flags} {genesis : NetworkId} :
    idViolations node label flags genesis = [] ↔
      ∀ get ∈ layersOf node flags, ∀ id, get "network-id" = some (Genesis.idValue id) →
        id = genesis := by
  rw [idViolations, List.map_eq_nil_iff, List.filter_eq_nil_iff]
  simp only [List.mem_filterMap, networkId?_eq_some_iff, decide_eq_true_eq, not_not]
  constructor
  · intro h get hget id hid
    exact h id ⟨get, hget, hid⟩
  · rintro h id ⟨get, hget, hid⟩
    exact h get hget id hid

/-- Neither half of a pair is empty. -/
theorem ne_empty_of_ofPem {key cert : String} {identity : StakingIdentity}
    (h : StakingIdentity.ofPem key cert = .ok identity) : key ≠ "" ∧ cert ≠ "" := by
  simp only [StakingIdentity.ofPem_eq, bind_eq_ok_iff] at h
  obtain ⟨der, hcert, publicKey, hkey, -⟩ := h
  constructor
  · rintro rfl
    cases hkey
  · rintro rfl
    cases hcert

theorem stakingViolations_eq_nil_iff {node : NodeConfig} :
    stakingViolations node label = [] ↔
      (node.stakingKey = "" ∧ node.stakingCert = "") ∨
        ∃ identity, StakingIdentity.ofPem node.stakingKey node.stakingCert = .ok identity := by
  unfold stakingViolations
  by_cases hkey : node.stakingKey = ""
  · by_cases hcert : node.stakingCert = ""
    · simp [hkey, hcert]
    · have hnone : ∀ identity, StakingIdentity.ofPem "" node.stakingCert ≠ .ok identity :=
        fun identity h => (ne_empty_of_ofPem h).1 rfl
      simp [hkey, hcert, hnone]
  · by_cases hcert : node.stakingCert = ""
    · have hnone : ∀ identity, StakingIdentity.ofPem node.stakingKey "" ≠ .ok identity :=
        fun identity h => (ne_empty_of_ofPem h).2 rfl
      simp [hkey, hcert, hnone]
    · cases hpair : StakingIdentity.ofPem node.stakingKey node.stakingCert with
      | ok identity => simp [hkey, hcert]
      | error fault => simp [hkey, hcert]

theorem nodeViolations_eq_nil_iff {node : NodeConfig} {flags : Flags} {genesis : NetworkId} :
    nodeViolations node label flags genesis = [] ↔ WellFormedNode genesis flags node := by
  simp only [nodeViolations, List.append_eq_nil_iff, implViolations_eq_nil_iff,
    fileViolations_eq_nil_iff, flagViolations, List.map_eq_nil_iff, faults_eq_nil_iff,
    idViolations_eq_nil_iff, stakingViolations_eq_nil_iff, layersOf, List.forall_mem_cons]
  constructor
  · rintro ⟨⟨⟨⟨himpl, hfile⟩, hflags⟩, hflagsId, hfileId, himplId, -⟩, hstaking⟩
    refine ⟨?_, ?_, ⟨hflags, hflagsId⟩, hstaking⟩
    · obtain ⟨text, members, hdocument, hblank, hparse, htyped⟩ := himpl
      rw [hdocument, documentFields_of_parse hparse] at himplId
      exact ⟨text, members, hdocument, hblank, hparse, htyped, himplId⟩
    · intro text hdocument hempty
      obtain ⟨members, hparse, htyped⟩ := hfile text hdocument hempty
      have hfile? : node.configFile? = some text := by
        simp [NodeConfig.configFile?, hdocument, Option.filter, hempty]
      rw [hfile?, documentFields_of_parse hparse] at hfileId
      exact ⟨members, hparse, htyped, hfileId⟩
  · rintro ⟨⟨text, members, hdocument, hblank, hparse, himpl⟩, hfile, hflags, hstaking⟩
    refine ⟨⟨⟨⟨⟨text, members, hdocument, hblank, hparse, himpl.typed⟩, ?_⟩, hflags.typed⟩,
      hflags.networkId, ?_, ?_, nofun⟩, hstaking⟩
    · intro text hdocument hempty
      obtain ⟨members, hparse, hsound⟩ := hfile text hdocument hempty
      exact ⟨members, hparse, hsound.typed⟩
    · cases hfile? : node.configFile? with
      | none => exact nofun
      | some text =>
          obtain ⟨hdocument, hempty⟩ := Option.filter_eq_some_iff.mp hfile?
          obtain ⟨members, hparse, hsound⟩ := hfile text hdocument (by simpa using hempty)
          rw [documentFields_of_parse hparse]
          exact hsound.networkId
    · rw [hdocument, documentFields_of_parse hparse]
      exact himpl.networkId

theorem beaconViolations_eq_nil_iff {nodes : List NodeConfig} :
    beaconViolations nodes = [] ↔ nodes = [] ∨ ∃ node ∈ nodes, node.isBeacon := by
  by_cases h : nodes = [] ∨ ∃ node ∈ nodes, node.isBeacon <;> simp [beaconViolations, h]

theorem nameViolations_eq_nil_iff {names : List String} : nameViolations names = [] ↔ names.Nodup := by
  rw [← (reports_ensureUnique names).exists_ok_iff, ← Names.ensureUnique_eq_ok_iff]
  constructor
  · rintro ⟨_, h⟩
    exact h
  · intro h
    exact ⟨(), h⟩

theorem violations_eq_nil_iff {config : NetworkConfig} : violations config = [] ↔ WellFormed config := by
  unfold violations
  cases hgenesis : Genesis.networkId config.genesis with
  | error e =>
      constructor
      · exact nofun
      · rintro ⟨⟨genesis, hok, -⟩, -, -⟩
        cases hgenesis.symm.trans hok
  | ok genesis =>
      simp only [List.append_eq_nil_iff, List.flatMap_eq_nil_iff, nodeViolations_eq_nil_iff,
        beaconViolations_eq_nil_iff, nameViolations_eq_nil_iff]
      constructor
      · rintro ⟨⟨hnodes, hbeacons⟩, hnames⟩
        refine ⟨⟨genesis, hgenesis, fun node hnode => ?_⟩, hbeacons, hnames⟩
        obtain ⟨index, hindex⟩ := List.mem_iff_getElem?.mp hnode
        exact hnodes (node, index) (List.mk_mem_zipIdx_iff_getElem?.mpr hindex)
      · rintro ⟨⟨other, hok, hnodes⟩, hbeacons, hnames⟩
        cases hgenesis.symm.trans hok
        exact ⟨⟨fun entry hentry => hnodes _ (List.fst_mem_of_mem_zipIdx hentry), hbeacons⟩, hnames⟩

end Validation

end Localnet
