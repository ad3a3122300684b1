import Localnet.Proofs.Armor
import Localnet.Proofs.Network.Files
import Localnet.Proofs.Violations

/-!
# Identities

What a node is known by is the id of the key and the certificate that are recorded of it, whether the
node brought them or the host handed them out. The same two texts are in the files that it is launched
with, and the same id is in the arguments of the nodes that bootstrap from it.
-/

namespace Localnet

open List (Forall₂)

/-- A key and a certificate make up an identity with some id. -/
def StakingIdentity.Identifies (key cert : String) (id : NodeId) : Prop :=
  ∃ identity, StakingIdentity.ofPem key cert = .ok identity ∧ identity.nodeId = id

theorem StakingIdentity.texts_of_ofPem {key cert : String} {identity : StakingIdentity}
    (h : StakingIdentity.ofPem key cert = .ok identity) : identity.key = key ∧ identity.cert = cert := by
  simp only [StakingIdentity.ofPem_eq, Validation.bind_eq_ok_iff] at h
  obtain ⟨der, -, publicKey, -, hidentity⟩ := h
  split at hidentity
  · cases hidentity
    exact ⟨rfl, rfl⟩
  · cases hidentity

/-- The identities that were handed out have the ids that they were handed out with. -/
def SoundIdentities (history : List Event) : Prop :=
  ∀ identity : StakingIdentity, ⟨.identity, .ok identity⟩ ∈ history →
    StakingIdentity.Identifies identity.key identity.cert identity.nodeId

theorem SoundIdentities.of_cons {e : Event} {history : List Event} (h : SoundIdentities (e :: history)) :
    SoundIdentities history :=
  fun identity hmem => h identity (List.mem_cons_of_mem e hmem)

def NodeConfig.BringsPair (config : NodeConfig) : Prop :=
  config.stakingKey ≠ "" ∨ config.stakingCert ≠ ""

/-- What was written last at a place, by whatever path. -/
def LastWritten (path text : String) (history : List Event) : Prop :=
  ∃ later earlier, history = later ++ ⟨.writeFile path text, .ok ()⟩ :: earlier ∧
    ∀ path' text' reply, ⟨.writeFile path' text', reply⟩ ∈ later →
      Path.components path' ≠ Path.components path

/-- A node is launched with flags that lead to its key and its certificate. -/
structure Node.FindsPair (node : Node) (flags : Flags) (history : List Event) : Prop where
  keyPath : flags.get? "staking-tls-key-file" = some (.text (Path.join node.endpoints.dir "staking.key"))
  certPath : flags.get? "staking-tls-cert-file" = some (.text (Path.join node.endpoints.dir "staking.crt"))
  key : LastWritten (Path.join node.endpoints.dir "staking.key") node.config.stakingKey history
  cert : LastWritten (Path.join node.endpoints.dir "staking.crt") node.config.stakingCert history

/-- A node that came in as some configuration is known by one identity. -/
structure Node.KeepsIdentity (network : Network) (input : NodeConfig) (node : Node)
    (history : List Event) : Prop where
  dir : node.endpoints.dir = Path.join network.root node.name
  identified :
    StakingIdentity.Identifies node.config.stakingKey node.config.stakingCert node.nodeId
  recorded : ∃ identity, node.config = network.configInUse input node.name identity
  brought : input.BringsPair →
    node.config.stakingKey = input.stakingKey ∧ node.config.stakingCert = input.stakingCert
  generated : ¬ input.BringsPair →
    ⟨.identity, .ok ⟨node.config.stakingKey, node.config.stakingCert, node.nodeId⟩⟩ ∈ history
  launched : ∃ (flags : Flags) (args : List String) (earlier : List Event),
    ⟨.launch node.config args, .ok node.process⟩ :: earlier <:+ history ∧
      flags.RenderAs args ∧ node.FindsPair flags earlier

/-- Arguments that tell the id of each registered beacon as its key and its certificate give it. -/
def Registry.IdsToldBy (r : Registry) (args : List String) : Prop :=
  ∃ (beacons : List Node) (ids : List NodeId) (flags : Flags),
    beacons.Perm (r.nodes.values.filter (·.isBeacon)) ∧
    Forall₂ (fun node id =>
      StakingIdentity.Identifies node.config.stakingKey node.config.stakingCert id) beacons ids ∧
    flags.RenderAs args ∧ flags.get? "bootstrap-ids" = some (.text (",".intercalate (ids.map toString))) ∧
    "--bootstrap-ids=" ++ ",".intercalate (ids.map toString) ∈ args

/-! ### Validation -/

theorem Validation.stakingIdentity_of_validateNode {node : NodeConfig} {label : String} {flags : Flags}
    {genesis : NetworkId} {valid : ValidatedNode}
    (h : validateNode node label flags genesis = .ok valid) :
    stakingIdentity node label = .ok valid.staking := by
  simp only [validateNode, bind_eq_ok_iff] at h
  obtain ⟨_, -, _, -, _, -, _, -, staking, hstaking, heq⟩ := h
  cases heq
  exact hstaking

/-- A node that brings no pair has no identity of its own, and one that does has that of the pair. -/
theorem Validation.stakingIdentity_eq_ok_iff {node : NodeConfig} {label : String}
    {staking : Option StakingIdentity} :
    stakingIdentity node label = .ok staking ↔
      (¬ node.BringsPair ∧ staking = none) ∨
        ∃ identity, StakingIdentity.ofPem node.stakingKey node.stakingCert = .ok identity ∧
          staking = some identity := by
  unfold stakingIdentity NodeConfig.BringsPair
  by_cases hkey : node.stakingKey = ""
  · have hnone : ∀ identity, StakingIdentity.ofPem "" node.stakingCert ≠ .ok identity :=
      fun identity h => (ne_empty_of_ofPem h).1 rfl
    by_cases hcert : node.stakingCert = ""
    · rw [hcert] at hnone
      simp [hkey, hcert, hnone, eq_comm]
    · simp [hkey, hcert, hnone]
  · by_cases hcert : node.stakingCert = ""
    · have hnone : ∀ identity, StakingIdentity.ofPem node.stakingKey "" ≠ .ok identity :=
        fun identity h => (ne_empty_of_ofPem h).2 rfl
      simp [hkey, hcert, hnone]
    · cases hpair : StakingIdentity.ofPem node.stakingKey node.stakingCert with
      | error fault => simp [hkey, hcert]
      | ok identity => simp [hkey, hcert, eq_comm]

theorem NodeConfig.bringsPair_of_ofPem {node : NodeConfig} {identity : StakingIdentity}
    (h : StakingIdentity.ofPem node.stakingKey node.stakingCert = .ok identity) : node.BringsPair :=
  .inl (Validation.ne_empty_of_ofPem h).1

/-! ### One node -/

/-- Of files at different places, each holds what it was written with. -/
theorem lastWritten_of_mem {files : List (String × String)} {file : String × String}
    (hdistinct : files.Pairwise fun file other => Path.components file.1 ≠ Path.components other.1)
    (hfile : file ∈ files) (earlier : List Event) :
    LastWritten file.1 file.2
      ((files.map fun file => ⟨.writeFile file.1 file.2, .ok ()⟩).reverse ++ earlier) := by
  obtain ⟨before, after, rfl⟩ := List.append_of_mem hfile
  refine ⟨(after.map fun file => ⟨.writeFile file.1 file.2, .ok ()⟩).reverse,
    (before.map fun file => ⟨.writeFile file.1 file.2, .ok ()⟩).reverse ++ earlier, by simp, ?_⟩
  intro path text reply hmem
  obtain ⟨other, hother, heq⟩ := List.mem_map.mp (List.mem_reverse.mp hmem)
  cases heq
  have hpairwise := (List.pairwise_append.mp hdistinct).2.1
  exact ((List.pairwise_cons.mp hpairwise).1 other hother).symm

section

variable {given : NodeConfig → Prop} {network : Network} {input : NodeConfig} {node : Node}
  {valid : ValidatedNode} {r : Registry} {plan : Plan} {events history : List Event}

theorem Groundwork.findsPair (h : Groundwork network valid r plan events) (bootstrap : List Beacon)
    (client : Client) (process : Process) (history : List Event) :
    (plan.nodeIn network client process).FindsPair
      (network.launchFlags (plan.configIn network) (plan.endpointsIn network)
        (NodeFiles.ofDir (plan.endpointsIn network).dir (plan.configIn network)) bootstrap)
      (events ++ history) := by
  obtain ⟨ids, ports, rfl, -⟩ := h
  have hflags := network.carriesFiles_launchFlags (plan.configIn network) (plan.endpointsIn network)
    (NodeFiles.ofDir (plan.endpointsIn network).dir (plan.configIn network)) bootstrap
  have hwritten : ∀ file ∈ plan.filesIn network,
      LastWritten file.1 file.2
        (plan.written network ++ (plan.made network ++ (ports ++ ids)) ++ history) := by
    intro file hfile
    rw [List.append_assoc]
    exact lastWritten_of_mem (pairwise_contents _ _ _) hfile _
  have hkey : (Path.join (plan.endpointsIn network).dir "staking.key",
      (plan.configIn network).stakingKey) ∈ plan.filesIn network := by
    simp [Plan.filesIn, NodeFiles.contents, NodeFiles.ofDir]
  have hcert : (Path.join (plan.endpointsIn network).dir "staking.crt",
      (plan.configIn network).stakingCert) ∈ plan.filesIn network := by
    simp [Plan.filesIn, NodeFiles.contents, NodeFiles.ofDir]
  exact ⟨hflags.stakingKey, hflags.stakingCert, hwritten _ hkey, hwritten _ hcert⟩

/-- The identity of a plan is that of a pair that its node brings, or one that was handed out. -/
theorem IdentityFrom.identified {name : String} {identity : StakingIdentity}
    (h : IdentityFrom valid identity events) (hsound : SoundIdentities events)
    (hadmitted : Admitted (fun _ => True) given network input name valid) :
    StakingIdentity.Identifies identity.key identity.cert identity.nodeId ∧
      (input.BringsPair → identity.key = input.stakingKey ∧ identity.cert = input.stakingCert) ∧
      (¬ input.BringsPair → ⟨.identity, .ok identity⟩ ∈ events) := by
  have hstaking := Validation.stakingIdentity_of_validateNode (hadmitted.accepted "")
  rcases Validation.stakingIdentity_eq_ok_iff.mp hstaking with ⟨hnot, hnone⟩ | ⟨own, hofPem, hown⟩
  · rcases h with ⟨hbrings, -⟩ | ⟨-, rfl⟩
    · cases hbrings.symm.trans hnone
    · exact ⟨hsound identity (List.mem_singleton_self _), fun hpair => absurd hpair hnot,
        fun _ => List.mem_singleton_self _⟩
  · rcases h with ⟨hbrings, -⟩ | ⟨hnone, -⟩
    · cases hbrings.symm.trans hown
      have htexts := StakingIdentity.texts_of_ofPem hofPem
      refine ⟨⟨identity, ?_, rfl⟩, fun _ => htexts,
        fun hnot => absurd (NodeConfig.bringsPair_of_ofPem hofPem) hnot⟩
      rwa [htexts.1, htexts.2]
    · cases hown.symm.trans hnone

theorem Node.KeepsIdentity.cons (h : node.KeepsIdentity network input history) (e : Event) :
    node.KeepsIdentity network input (e :: history) where
  dir := h.dir
  identified := h.identified
  recorded := h.recorded
  brought := h.brought
  generated hnot := List.mem_cons_of_mem e (h.generated hnot)
  launched := by
    obtain ⟨flags, args, earlier, hsuffix, hargs, hfinds⟩ := h.launched
    exact ⟨flags, args, earlier, hsuffix.trans (List.suffix_cons e history), hargs, hfinds⟩

theorem Turn.keepsIdentity {name : String} {w w' : World}
    (h : Turn network input name valid w (.ok node) w') (hsound : SoundIdentities w'.history)
    (hadmitted : Admitted (fun _ => True) given network input name valid) :
    node.KeepsIdentity network input w'.history := by
  cases h with
  | @ready plan events hplan hground =>
      obtain rfl := hplan.config
      have hfinds := hground.findsPair (w.registry.beacons.filter (·.name ≠ plan.name))
        (plan.clientIn (w.extendedBy events)) (plan.processIn (w.extendedBy events)) w.history
      obtain ⟨ids, ports, hevents, hids, -⟩ := hground
      have hsub : ids ⊆ events := by
        rw [hevents]
        intro e he
        simp [he]
      have hmem : ids ⊆ (plan.connect network (w.extendedBy events)
          (.ok (plan.clientIn (w.extendedBy events)))).history := fun e he =>
        List.mem_cons_of_mem _ <| List.mem_cons_of_mem _ <| List.mem_cons_of_mem _ <|
          List.mem_append_left _ (hsub he)
      obtain ⟨hidentified, hbrought, hgenerated⟩ :=
        hids.identified (fun identity hidentity => hsound identity (hmem hidentity)) hadmitted
      refine ⟨rfl, hidentified, ⟨plan.identity, rfl⟩, hbrought, fun hnot => hmem (hgenerated hnot), ?_⟩
      refine ⟨_, _, _, (List.suffix_cons _ _).trans (List.suffix_cons _ _), ?_, hfinds⟩
      exact Flags.renderAs_arguments _

end

/-! ### All nodes -/

theorem lasting_keepsIdentity (given : NodeConfig → Prop) (network : Network) :
    Lasting (fun _ => True) given network fun nodes history => SoundIdentities history →
      ∀ node ∈ nodes, ∃ input, given input ∧ node.KeepsIdentity network input history where
  start _ := nofun
  sub hsub h hsound node hnode := h hsound node (hsub hnode)
  others h _ _ _ hsound node hnode := by
    obtain ⟨input, hinput, hkeeps⟩ := h hsound.of_cons node hnode
    exact ⟨input, hinput, hkeeps.cons _⟩
  shutDown h _ hsound node hnode := by
    obtain ⟨input, hinput, hkeeps⟩ := h hsound.of_cons node hnode
    exact ⟨input, hinput, hkeeps.cons _⟩
  ready := by
    intro nodes config name valid w node w' h hadmitted hturn hsound
    refine List.forall_mem_cons.mpr ⟨?_, h hsound⟩
    exact ⟨config, hadmitted.config_given, hturn.keepsIdentity hsound hadmitted⟩

section

variable {given : NodeConfig → Prop} {network : Network} {w : World}

theorem VisitedWith.launchesWithBeacons {request : HostRequest}
    (h : VisitedWith given network w (some request)) : ∃ roll, LaunchesWithBeacons roll w request := by
  cases h with
  | creating _ _ hasked _ => exact ⟨_, ((ensures_create _).asked _ _ hasked).withBeacons⟩
  | calling hlife _ hasked =>
      exact ⟨_, ((ensures_call _ _ hlife.life.inOrder).asked _ _ hasked).withBeacons⟩

/-- **Identities.** If the identities that were handed out have the ids that they were handed out with,
then the key and the certificate that are recorded of a registered node make up an identity with the id
of the node, and they are what was written to its files when it was launched: those of the configuration
that it came in as, if that has any. Whatever is launched is told the ids of the registered beacons as
their keys and certificates give them. -/
theorem identities_are_kept {asked : Option HostRequest} (h : VisitedWith given network w asked)
    (hsound : SoundIdentities w.history) :
    (∀ node ∈ w.registry.nodes.values,
      ∃ input, given input ∧ node.KeepsIdentity network input w.history) ∧
    ∀ config args, asked = some (.launch config args) → w.registry.IdsToldBy args := by
  have hkeeps := h.has (lasting_keepsIdentity given) (fun _ => trivial) (fun _ _ _ => trivial) hsound
  refine ⟨hkeeps, ?_⟩
  rintro config args rfl
  obtain ⟨roll, hlaunches⟩ := h.launchesWithBeacons
  obtain ⟨hbeacons, -, hbootstrap⟩ := hlaunches config args rfl
  obtain ⟨flags, hargs, hids, -⟩ := hbootstrap.flags
  have htold : joinedIds (beaconsOn roll) =
      ",".intercalate (((beaconsOn roll).map (·.nodeId)).map toString) := by
    rw [List.map_map]
    rfl
  refine ⟨beaconsOn roll, (beaconsOn roll).map (·.nodeId), flags, hbeacons.registered.filter _, ?_,
    hargs, htold ▸ hids, htold ▸ hbootstrap.ids⟩
  rw [List.forall₂_map_right_iff, List.forall₂_same]
  intro node hnode
  have hregistered := hbeacons.registered.mem_iff.mp (List.mem_filter.mp hnode).1
  obtain ⟨input, -, hkept⟩ := hkeeps node hregistered
  exact hkept.identified

end

/-! ### Hosts that hand out sound identities -/

/-- A host that hands out identities with the ids that they have. -/
def World.Oracle.HandsOutSound (oracle : World.Oracle) : Prop :=
  ∀ history identity, oracle history .identity = .ok identity →
    StakingIdentity.Identifies identity.key identity.cert identity.nodeId

theorem World.Oracle.HandsOutSound.keeps {oracle : World.Oracle} (h : oracle.HandsOutSound) {α : Type}
    (task : Task α) {w : World} (hw : SoundIdentities w.history) :
    SoundIdentities (World.run oracle task w).2.history ∧
      ∀ x ∈ World.asked oracle task w, SoundIdentities x.1.history := by
  refine World.kept_along (fun w request hw identity hmem => ?_) task hw
  rcases List.mem_cons.mp hmem with heq | hmem
  · injection heq with hrequest hreply
    subst hrequest
    exact h w.history identity (eq_of_heq hreply).symm
  · exact hw identity hmem

/-- The document of a private key for the curve P-256. -/
def p256Key : List UInt8 :=
  [0x308187020100301306072A8648CE3D020106082A8648CE3D030107046D306B02,
    0x0101042023F72481FB13455DD6078DDAF890662F1284BF0F38FE726D844B6B36,
    0xE9D94C7AA144034200049CD9F9170BF59EEA84DC8F664E05A72DD6C16FC54659,
    0x483ACA0854401960496BC31F61020606AC9EF81887696B17CE864B4CFC3C755C].flatMap (Bytes.ofNat 32) ++
    Bytes.ofNat 10 0x7D9256B9D3EF1298087B

/-- A certificate that is signed with the key. -/
def p256Cert : List UInt8 :=
  [0x308201753082011BA003020102021466388BDD624FFC80B0725290CECEC96071,
    0xCB0810300A06082A8648CE3D0403023010310E300C06035504030C056E6F6465,
    0x31301E170D3236313131393133333732325A170D333631313136313333373232,
    0x5A3010310E300C06035504030C056E6F6465313059301306072A8648CE3D0201,
    0x06082A8648CE3D030107034200049CD9F9170BF59EEA84DC8F664E05A72DD6C1,
    0x6FC54659483ACA0854401960496BC31F61020606AC9EF81887696B17CE864B4C,
    0xFC3C755C7D9256B9D3EF1298087BA3533051301D0603551D0E04160414AF9481,
    0x2E3A8E457E1C3D3527318FA263C62BA440301F0603551D23041830168014AF94,
    0x812E3A8E457E1C3D3527318FA263C62BA440300F0603551D130101FF04053003,
    0x0101FF300A06082A8648CE3D0403020348003045022011AC00E0C386C124C259,
    0x4C160BED63D95E57C4B9A27B0F91AEE43C34C5760398022100F944FAD7EC65DE].flatMap (Bytes.ofNat 32) ++
    Bytes.ofNat 25 0xD07C48B2B087BCFF94B9A02E9187CDC5CEADB31127645C09A0

def p256Pair : StakingIdentity where
  key := Pem.armor "PRIVATE KEY" p256Key
  cert := Pem.armor "CERTIFICATE" p256Cert
  nodeId := .ofCertificate p256Cert

/-- The info of the public half of the key. -/
def p256Info : List UInt8 :=
  [0x3059301306072A8648CE3D020106082A8648CE3D030107034200049CD9F9170B,
    0xF59EEA84DC8F664E05A72DD6C16FC54659483ACA0854401960496BC31F610206].flatMap (Bytes.ofNat 32) ++
    Bytes.ofNat 27 0x06AC9EF81887696B17CE864B4CFC3C755C7D9256B9D3EF1298087B

theorem publicKeyOf_eq_ok {key : String} {document : List UInt8} {publicKey : PublicKey}
    (hsection : Pem.sectionBytes key = .ok document)
    (hpublic : PrivateKey.publicKey? document = some publicKey) : publicKeyOf key = .ok publicKey := by
  simp only [publicKeyOf, hsection, hpublic]

theorem publicKeyOf_p256Pair : ∃ publicKey, publicKeyOf p256Pair.key = .ok publicKey ∧
    publicKey.info = p256Info := by
  have hsection : (Pem.sectionBytes (Pem.armor "PRIVATE KEY" p256Key)).toOption = some p256Key := by
    rw [Pem.sectionBytes, Pem.toList_armor]
    decide +kernel
  have hinfo : (PrivateKey.publicKey? p256Key).map (·.info) = some p256Info := by decide +kernel
  obtain ⟨publicKey, hpublic, hinfo⟩ := Option.map_eq_some_iff.mp hinfo
  exact ⟨publicKey, publicKeyOf_eq_ok (Validation.toOption_eq_some_iff.mp hsection) hpublic, hinfo⟩

/-- A pair from its parts: the contents of its certificate and the public half of its key. -/
theorem StakingIdentity.ofPem_eq_ok {key cert : String} {der : List UInt8} {publicKey : PublicKey}
    (hder : certificateOf cert = .ok der) (hkey : publicKeyOf key = .ok publicKey)
    (hholds : Bytes.isInfix publicKey.info der) :
    StakingIdentity.ofPem key cert = .ok ⟨key, cert, .ofCertificate der⟩ := by
  rw [StakingIdentity.ofPem_eq, hder, hkey]
  exact if_pos hholds

theorem ofPem_p256Pair : StakingIdentity.ofPem p256Pair.key p256Pair.cert = .ok p256Pair := by
  obtain ⟨publicKey, hkey, hinfo⟩ := publicKeyOf_p256Pair
  have hholds : Bytes.isInfix p256Info p256Cert := by decide +kernel
  rw [← hinfo] at hholds
  exact StakingIdentity.ofPem_eq_ok (certificateOf_armor p256Cert) hkey hholds

def handingHost : World.Oracle := fun history request =>
  match request with
  | .identity => .ok p256Pair
  | request => willingHost history request

theorem handsOutSound_handingHost : handingHost.HandsOutSound := by
  intro history identity h
  obtain rfl := Except.ok.inj h
  exact ⟨p256Pair, ofPem_p256Pair, rfl⟩

def NodeConfig.withPair (node : NodeConfig) (identity : StakingIdentity) : NodeConfig :=
  { node with stakingKey := identity.key, stakingCert := identity.cert }

def ValidatedNode.withIdentity (valid : ValidatedNode) (identity : StakingIdentity) : ValidatedNode :=
  { valid with staking := some identity }

namespace Validation

variable {node : NodeConfig} {identity : StakingIdentity}
  (hpair : StakingIdentity.ofPem identity.key identity.cert = .ok identity)
  (hnone : ¬ node.BringsPair)

include hpair hnone

/-- A pair has no part in how the rest of a node is validated. -/
theorem validateNode_withPair (label : String) (flags : Flags) (genesis : NetworkId) :
    validateNode (node.withPair identity) label flags genesis =
      (·.withIdentity identity) <$> validateNode node label flags genesis := by
  have hown : stakingIdentity (node.withPair identity) label = .ok (some identity) :=
    stakingIdentity_eq_ok_iff.mpr (.inr ⟨identity, hpair, rfl⟩)
  have hnone : stakingIdentity node label = .ok none :=
    stakingIdentity_eq_ok_iff.mpr (.inl ⟨hnone, rfl⟩)
  simp only [validateNode, map_bind, hown, hnone]
  rfl

theorem validate_withPair (config : NetworkConfig) :
    validate { config with nodes := [node.withPair identity] } =
      (fun valid => { valid with nodes := valid.nodes.map (·.withIdentity identity) }) <$>
        validate { config with nodes := [node] } := by
  simp only [validate, map_bind]
  refine bind_congr fun genesis => ?_
  have hnodes : validateNodes { config with nodes := [node.withPair identity] } genesis 0
      [node.withPair identity] =
        List.map (·.withIdentity identity) <$>
          validateNodes { config with nodes := [node] } genesis 0 [node] := by
    simp only [validateNodes, validateNode_withPair hpair hnone]
    change ((·.withIdentity identity) <$> validateNode node (node.label 0) (config.flagsOf node) genesis
      >>= _) = _ <$> (validateNode node (node.label 0) (config.flagsOf node) genesis >>= _)
    cases validateNode node (node.label 0) (config.flagsOf node) genesis <;> rfl
  have hbeacons : checkBeacons [node.withPair identity] = checkBeacons [node] := by
    simp [checkBeacons, NodeConfig.withPair]
  have hnames : Names.resolve [node.withPair identity] = Names.resolve [node] := rfl
  have hgenerated : Names.generatedCount [node.withPair identity] = Names.generatedCount [node] := by
    simp only [Names.generatedCount, ← List.countP_eq_length_filter, List.countP_singleton]
    rfl
  rw [hnodes, hbeacons, hnames, hgenerated]
  cases validateNodes { config with nodes := [node] } genesis 0 [node] with
  | error e => rfl
  | ok nodes =>
      cases checkBeacons [node] with
      | error e => rfl
      | ok _ => cases Names.ensureUnique (Names.resolve [node]) <;> rfl

end Validation

def beaconNode : NodeConfig := { plainNode "a" with isBeacon := true }

/-- What comes in: a beacon that brings a pair, and a node that has none. -/
def pairedNodes : List NodeConfig := [beaconNode.withPair p256Pair, plainNode "b"]

def pairedConfig : NetworkConfig := { soloConfig with nodes := [beaconNode.withPair p256Pair] }

theorem identities_are_kept_of_joining_node :
    ∃ (network : Network) (w : World) (x : World × HostRequest) (launched : NodeConfig)
        (args : List String),
      VisitedWith (· ∈ pairedNodes) network x.1 (some x.2) ∧
      x.2 = .launch launched args ∧ SoundIdentities x.1.history ∧ x.1.registry.IdsToldBy args ∧
      VisitedWith (· ∈ pairedNodes) network w none ∧
      w.registry.nodes.names = ["a", "b"] ∧ SoundIdentities w.history ∧
      ∀ node ∈ w.registry.nodes.values,
        ∃ input ∈ pairedNodes, node.KeepsIdentity network input w.history := by
  have hends :
      (match World.run handingHost (Network.create pairedConfig).run .blank with
        | (.ok network, w) =>
          let call := (Call.add (plainNode "b")).operation network
          (World.asked handingHost call.run w).any (·.2.isLaunch) &&
            (World.run handingHost call.run w).2.registry.nodes.names = ["a", "b"]
        | (.error _, _) => false) = true := by
    have hnone : ¬ beaconNode.BringsPair := by rintro (h | h) <;> exact h rfl
    rw [Network.create, pairedConfig, Validation.validate_withPair ofPem_p256Pair hnone]
    decide +kernel
  split at hends
  next network w hcreate =>
    rw [Bool.and_eq_true, decide_eq_true_eq] at hends
    obtain ⟨x, hx, launched, args, hlaunch⟩ := exists_launch_of_any hends.1
    have hlife : LifeWith (· ∈ pairedNodes) network _ w :=
      .created (fun node hnode => List.mem_cons.mpr (.inl (List.mem_singleton.mp hnode))) hcreate
    have hgiven : ∀ config, Call.add (plainNode "b") = .add config → config ∈ pairedNodes := by
      rintro config ⟨⟩
      exact List.mem_cons_of_mem _ (List.mem_singleton_self _)
    have hblank : SoundIdentities World.blank.history := nofun
    have hcreated : SoundIdentities w.history :=
      (congrArg (·.2.history) hcreate) ▸
        (handsOutSound_handingHost.keeps (Network.create pairedConfig).run hblank).1
    obtain ⟨hadded, hall⟩ := handsOutSound_handingHost.keeps
      ((Call.add (plainNode "b")).operation network).run hcreated
    have hasked := hall x hx
    have hcalling := VisitedWith.calling hlife hgiven hx
    have hbetween : VisitedWith (· ∈ pairedNodes) network
        (World.run handingHost ((Call.add (plainNode "b")).operation network).run w).2 none :=
      .between (.called hlife hgiven rfl)
    exact ⟨network, _, x, launched, args, hcalling, hlaunch, hasked,
      (identities_are_kept hcalling hasked).2 launched args (congrArg some hlaunch), hbetween,
      hends.2, hadded, (identities_are_kept hbetween hadded).1⟩
  next => cases hends

end Localnet
