import Localnet.Proofs.Layers
import Localnet.Proofs.Network.Bootstrap
import Localnet.Proofs.Network.Creation
import Localnet.Proofs.Network.Lasting

/-!
# What nodes are launched with

The arguments of a node are its flags, and over them what the network decides about it. The ports and
directories are those of the node's settings; a port that no layer binds is picked, and a directory that
no layer binds is one in the directory of the node.
-/

namespace Localnet

open Json (Value)
open Network (portValue chosenName)

/-- What the network decides about every node. -/
def Network.decidedFlags : List String :=
  ["network-id", "db-dir", "log-dir", "http-port", "staking-port", "genesis", "staking-tls-key-file",
    "staking-tls-cert-file", "bootstrap-ips", "bootstrap-ids"]

/-- A port was offered, and no registered node holds it. -/
def World.Picks (w : World) (port : Port) : Prop :=
  ⟨.unusedPort, some port⟩ ∈ w.history ∧ port ∉ w.registry.ports

/-- The value of a field in the layers of a node that is launched. -/
def layered? (node launched : NodeConfig) (field : String) : Option Value :=
  Fields.first? (Validation.layersOf node launched.flags) field

/-- The flags of a node that is launched in a world carry the configuration of the network and the
node. -/
structure CarriesConfig (config : NetworkConfig) (root : String) (node : NodeConfig) (w : World)
    (launched : NodeConfig) (flags : Flags) : Prop where
  ordered : flags.names.Pairwise (· < ·)
  recorded : launched.flags = config.flagsOf node
  accepted : ∃ id valid, Genesis.networkId config.genesis = .ok id ∧
    flags.get? "network-id" = some (Genesis.idValue id) ∧
    ∀ label, Validation.validateNode node label launched.flags id = .ok valid
  httpPort : ∃ picked,
    flags.get? "http-port" = some ((layered? node launched "http-port").getD (portValue picked)) ∧
    (layered? node launched "http-port" = none → w.Picks picked)
  stakingPort : ∃ picked,
    flags.get? "staking-port" = some ((layered? node launched "staking-port").getD (portValue picked)) ∧
    (layered? node launched "staking-port" = none → w.Picks picked)
  dbDir : flags.get? "db-dir" = some ((layered? node launched "db-dir").getD
    (.text (Path.join (Path.join root launched.name) "db")))
  logDir : flags.get? "log-dir" = some ((layered? node launched "log-dir").getD
    (.text (Path.join (Path.join root launched.name) "logs")))
  genesis : flags.get? "genesis" = some (.text (Path.join (Path.join root launched.name) "genesis.json"))
  stakingKey : flags.get? "staking-tls-key-file" =
    some (.text (Path.join (Path.join root launched.name) "staking.key"))
  stakingCert : flags.get? "staking-tls-cert-file" =
    some (.text (Path.join (Path.join root launched.name) "staking.crt"))
  bootstrapIps : flags.get? "bootstrap-ips" = some (.text (",".intercalate
    ((w.registry.beacons.filter (·.name ≠ launched.name)).map Beacon.address)))
  bootstrapIds : flags.get? "bootstrap-ids" = some (.text (",".intercalate
    ((w.registry.beacons.filter (·.name ≠ launched.name)).map (toString ·.nodeId))))
  configFile : ∀ document, node.configFile? = some document → flags.get? "config-file" =
    some (.text (Path.join (Path.join root launched.name) "config.json"))
  others : ∀ name ∉ Network.decidedFlags, (name = "config-file" → node.configFile? = none) →
    flags.get? name = (node.flags.get? name).or ((config.flags.get? name).or
      (if name = "log-level" then config.logLevel.map .text else none))

/-- The ports and directories of a node are those in its flags. -/
structure CarriesEndpoints (endpoints : Endpoints) (flags : Flags) : Prop where
  httpPort : flags.get? "http-port" = some (portValue endpoints.httpPort)
  stakingPort : flags.get? "staking-port" = some (portValue endpoints.stakingPort)
  dbDir : flags.get? "db-dir" = some (.text endpoints.dbDir)
  logDir : flags.get? "log-dir" = some (.text endpoints.logDir)

structure CarriesFiles (files : NodeFiles) (flags : Flags) : Prop where
  genesis : flags.get? "genesis" = some (.text files.genesis)
  stakingKey : flags.get? "staking-tls-key-file" = some (.text files.stakingKey)
  stakingCert : flags.get? "staking-tls-cert-file" = some (.text files.stakingCert)
  config : ∀ path, files.config = some path → flags.get? "config-file" = some (.text path)

namespace Network

variable (network : Network) (config : NodeConfig) (endpoints : Endpoints) (files : NodeFiles)
  (bootstrap : List Beacon)

theorem names_resolvedFlags :
    (network.resolvedFlags endpoints files bootstrap).map (·.1) =
      ["network-id", "db-dir", "log-dir", "http-port", "staking-port", "genesis",
        "staking-tls-key-file", "staking-tls-cert-file"] ++
      files.config.toList.map (fun _ => "config-file") ++ ["bootstrap-ips", "bootstrap-ids"] := by
  unfold resolvedFlags
  cases files.config <;> rfl

/-- What the network decides counts, and else what the node's flags say. -/
theorem get?_launchFlags (name : String) :
    (network.launchFlags config endpoints files bootstrap).get? name =
      (Members.find? name (network.resolvedFlags endpoints files bootstrap)).or
        (config.flags.get? name) := by
  refine Table.get?_foldl_insert ?_ config.flags name
  rw [names_resolvedFlags]
  cases files.config <;> simp

theorem carriesEndpoints_launchFlags :
    CarriesEndpoints endpoints (network.launchFlags config endpoints files bootstrap) := by
  constructor <;> rw [get?_launchFlags] <;> simp [resolvedFlags, Members.find?]

theorem carriesFiles_launchFlags :
    CarriesFiles files (network.launchFlags config endpoints files bootstrap) := by
  constructor
  case config =>
    intro path hpath
    rw [get?_launchFlags, resolvedFlags, hpath]
    simp [Members.find?]
  all_goals
    rw [get?_launchFlags]
    simp [resolvedFlags, Members.find?]

/-- What the network does not decide is up to the node's flags. -/
theorem get?_launchFlags_of_not_mem {name : String} (hname : name ∉ decidedFlags)
    (hfile : name = "config-file" → files.config = none) :
    (network.launchFlags config endpoints files bootstrap).get? name = config.flags.get? name := by
  rw [get?_launchFlags, Members.find?_eq_none_iff.mpr]
  · rfl
  rw [names_resolvedFlags]
  cases hconfig : files.config with
  | none => simpa [decidedFlags] using hname
  | some path =>
      have hne : name ≠ "config-file" := fun heq => nomatch (hfile heq).symm.trans hconfig
      simp only [decidedFlags, List.mem_cons, not_or] at hname
      simp [hne, hname]

end Network

/-! ### Launches -/

/-- A port that is declared is the one of its layers; any other is picked. -/
theorem PortFrom.layered {declared : Option Port} {taken : Port → Prop} {events : List Event}
    {port : Port} {value flag : Option Value} {w : World} (h : PortFrom declared taken events port)
    (hvalue : value = declared.map portValue) (hflag : flag = some (portValue port))
    (hevents : events ⊆ w.history) (htaken : ∀ held ∈ w.registry.ports, taken held) :
    ∃ picked, flag = some (value.getD (portValue picked)) ∧ (value = none → w.Picks picked) := by
  refine ⟨port, ?_⟩
  rw [hflag, hvalue]
  rcases h with rfl | ⟨rfl, hoffered, hfree⟩
  · exact ⟨rfl, nofun⟩
  · exact ⟨rfl, fun _ => ⟨hevents hoffered, fun hheld => hfree (htaken port hheld)⟩⟩

section

variable {config : NetworkConfig} {network : Network} {node : NodeConfig} {name : String}
  {valid : ValidatedNode} {w w' : World}

/-- What is launched when a node is set up. -/
theorem TurnAsks.carriesConfig {launched : NodeConfig} {args : List String}
    (hflags : network.flags = config.effectiveFlags)
    (hid : Genesis.networkId config.genesis = .ok network.networkId)
    (hvalid : ∀ label,
      Validation.validateNode node label (config.flagsOf node) network.networkId = .ok valid)
    (h : TurnAsks network node name valid w w' (.launch launched args)) :
    launched.name = name ∧ ∃ flags : Flags, args = flags.arguments ∧
      CarriesConfig config network.root node w' launched flags := by
  obtain ⟨-, hname, hlaunch⟩ := h
  obtain ⟨plan, events, hplan, hground, rfl, rfl, rfl⟩ := hlaunch launched args rfl
  obtain ⟨ids, ports, rfl, -, -, hhttp, hstaking⟩ := hground
  obtain rfl := hplan.config
  obtain rfl := hplan.name
  have hrecorded : (plan.configIn network).flags = config.flagsOf plan.config := by
    change network.flags.merge plan.config.flags = config.effectiveFlags.merge plan.config.flags
    rw [hflags]
  have hdeclares : Declares (layered? plan.config (plan.configIn network)) plan.settings := by
    rw [hplan.settings]
    exact declares_of_validateNode (hrecorded ▸ hvalid "")
  rw [← hplan.settings] at hhttp hstaking
  have hports : ports ⊆ plan.written network ++ (plan.made network ++ (ports ++ ids)) ++ w.history := by
    intro e he
    simp [he]
  have hendpoints := network.carriesEndpoints_launchFlags (plan.configIn network)
    (plan.endpointsIn network) (NodeFiles.ofDir (plan.endpointsIn network).dir (plan.configIn network))
    (w.registry.beacons.filter (·.name ≠ plan.name))
  have hfiles := network.carriesFiles_launchFlags (plan.configIn network)
    (plan.endpointsIn network) (NodeFiles.ofDir (plan.endpointsIn network).dir (plan.configIn network))
    (w.registry.beacons.filter (·.name ≠ plan.name))
  refine ⟨hname, _, rfl, ?_⟩
  constructor
  case ordered => exact List.pairwise_map.mpr (Table.ordered _)
  case recorded => exact hrecorded
  case accepted =>
    refine ⟨network.networkId, valid, hid, ?_, hrecorded ▸ hvalid⟩
    rw [Network.get?_launchFlags]
    simp [Network.resolvedFlags, Members.find?]
  case httpPort =>
    exact hhttp.layered hdeclares.httpPort hendpoints.httpPort hports fun _ => .inl
  case stakingPort =>
    exact hstaking.layered hdeclares.stakingPort hendpoints.stakingPort hports fun _ => .inl
  case dbDir =>
    rw [hendpoints.dbDir, hdeclares.dbDir, Option.getD_map]
    rfl
  case logDir =>
    rw [hendpoints.logDir, hdeclares.logDir, Option.getD_map]
    rfl
  case genesis => exact hfiles.genesis
  case stakingKey => exact hfiles.stakingKey
  case stakingCert => exact hfiles.stakingCert
  case bootstrapIps => exact network.get?_launchFlags_ips _ _ _ _
  case bootstrapIds => exact network.get?_launchFlags_ids _ _ _ _
  case configFile =>
    intro document hdocument
    have hconfig : (plan.configIn network).configFile? = some document := hdocument
    exact hfiles.config _ (NodeFiles.config_ofDir hconfig)
  case others =>
    intro key hkey hkeyFile
    rw [Network.get?_launchFlags_of_not_mem _ _ _ _ _ hkey, hrecorded, get?_flagsOf]
    intro heq
    have hnone : (plan.configIn network).configFile? = none := hkeyFile heq
    rw [NodeFiles.ofDir, hnone]
    rfl

end

/-- Nodes that are started one after the other are set up each under its name. -/
theorem ensures_startNodes_turnAsks (network : Network)
    (entries : List (NodeConfig × String × ValidatedNode)) (w : World) :
    w.Ensures
      (fun w' request => ∃ entry ∈ entries, ∃ w₁,
        TurnAsks network entry.1 entry.2.1 entry.2.2 w₁ w' request)
      (fun _ _ => True) (network.startNodes entries).run := by
  induction entries generalizing w with
  | nil => trivial
  | cons entry rest ih =>
      obtain ⟨config, name, valid⟩ := entry
      rw [Network.startNodes, World.ensures_run_bind]
      have hsetUp := (network.ensures_turn config name valid w).mono
        (fun w' request hasks => (⟨_, List.mem_cons_self, w, hasks⟩ :
          ∃ entry ∈ (config, name, valid) :: rest, ∃ w₁,
            TurnAsks network entry.1 entry.2.1 entry.2.2 w₁ w' request)) fun _ _ => id
      refine Network.ensures_startNode_of hsetUp (fun _ _ _ => trivial) fun node w' _ => ?_
      refine (ih _).mono ?_ fun _ _ _ => trivial
      rintro w'' request ⟨entry, hentry, w₁, hasks⟩
      exact ⟨entry, List.mem_cons_of_mem _ hentry, w₁, hasks⟩

theorem Aligned.mem_zip {config : NetworkConfig} {networkId : NetworkId} {entries : List Entry}
    {entry : Entry} (h : Aligned config networkId entries) (hentry : entry ∈ entries) :
    (entry.1, entry.2.1) ∈ config.nodes.zip (Names.resolve config.nodes) := by
  rw [← h.names, ← h.configs, List.zip_map']
  exact List.mem_map_of_mem hentry

/-- What is launched at creation, in a world that knows the root directory. -/
theorem ensures_create_carriesConfig (config : NetworkConfig) :
    World.blank.Ensures
      (fun w request => ∀ launched args, request = .launch launched args → ∃ root node flags,
        [⟨.makeRoot, .ok root⟩] <:+ w.history ∧
        (node, launched.name) ∈ config.nodes.zip (Names.resolve config.nodes) ∧
        args = Flags.arguments flags ∧ CarriesConfig config root node w launched flags)
      (fun result _ => ∀ network, result = .ok network →
        ∃ valid root, Validation.validate config = .ok valid ∧ network = .ofValid config valid root)
      (Network.create config).run := by
  refine ensures_create_of (fun _ _ => nofun) (fun _ _ => nofun) (fun _ _ _ => nofun) ?_
  intro valid root hvalid
  have haccepted := Validation.accepted_of_validate hvalid
  have hstart := (ensures_startNodes_turnAsks (.ofValid config valid root)
    (config.nodes.zip (valid.names.zip valid.nodes)) (.rooted root valid.generated)).and
    (World.ensures_history _ _)
  refine hstart.mono ?_ ?_
  · rintro w request ⟨⟨entry, hentry, w₁, hasks⟩, hsuffix⟩ launched args rfl
    have hentryValid := haccepted.aligned.valid entry hentry
    change ∀ label, Validation.validateNode entry.1 label (config.flagsOf entry.1)
      (Network.ofValid config valid root).networkId = .ok entry.2.2 at hentryValid
    obtain ⟨hname, flags, hargs, hcarries⟩ :=
      hasks.carriesConfig rfl haccepted.networkId hentryValid
    exact ⟨root, entry.1, flags, hsuffix, hname ▸ haccepted.aligned.mem_zip hentry, hargs, hcarries⟩
  · intro result w _ network hnetwork
    cases result with
    | error e => cases hnetwork
    | ok _ =>
        cases hnetwork
        exact ⟨valid, root, hvalid, rfl⟩

/-- What is launched when a node is added to a network that was created. -/
theorem ensures_add_carriesConfig {config : NetworkConfig} {valid : ValidatedNetwork} {root : String}
    (hvalid : Validation.validate config = .ok valid) (node : NodeConfig) (w : World) :
    w.Ensures
      (fun w' request => ∀ launched args, request = .launch launched args → ∃ flags,
        launched.name = chosenName node w.registry ∧ args = Flags.arguments flags ∧
        CarriesConfig config root node w' launched flags)
      (fun _ _ => True) ((Network.ofValid config valid root).add node).run := by
  refine Network.ensures_add_of (fun _ => trivial) (fun _ _ _ => trivial) (fun _ _ _ _ => trivial) ?_
  intro validNode _ hchecked _
  refine Network.ensures_startNode_of
    ((Network.ensures_turn _ node _ validNode (w.named node)).mono ?_ fun _ _ => id)
    (fun _ _ _ => trivial) fun _ _ _ => trivial
  rintro w' request hasks launched args rfl
  obtain ⟨hname, flags, hargs, hcarries⟩ := hasks.carriesConfig rfl
    (Validation.accepted_of_validate hvalid).networkId (Validation.validateNode_of_label hchecked)
  exact ⟨flags, hname, hargs, hcarries⟩

/-! ### Registered nodes -/

/-- A node was launched with the flags that its configuration, its endpoints and its files call for. -/
def Node.LaunchedIn (network : Network) (node : Node) (history : List Event) : Prop :=
  node.endpoints.dir = Path.join network.root node.name ∧ ∃ bootstrap,
    ⟨.launch node.config (network.launchFlags node.config node.endpoints
      (NodeFiles.ofDir node.endpoints.dir node.config) bootstrap).arguments, .ok node.process⟩ ∈ history

theorem lasting_launchedIn (allowed : String → Prop) {given : NodeConfig → Prop} (network : Network) :
    Lasting allowed given network fun nodes history => ∀ node ∈ nodes, node.LaunchedIn network history where
  start := nofun
  sub hsub h node hnode := h node (hsub hnode)
  others h _ _ _ node hnode := (h node hnode).imp_right fun ⟨bootstrap, hmem⟩ =>
    ⟨bootstrap, List.mem_cons_of_mem _ hmem⟩
  shutDown h _ node hnode := (h node hnode).imp_right fun ⟨bootstrap, hmem⟩ =>
    ⟨bootstrap, List.mem_cons_of_mem _ hmem⟩
  ready := by
    rintro nodes config name valid w node w' h - hturn
    refine List.forall_mem_cons.mpr ⟨?_, h⟩
    cases hturn with
    | @ready plan _ hplan hground =>
        refine ⟨rfl, w.registry.beacons.filter (·.name ≠ plan.name), ?_⟩
        exact List.mem_cons_of_mem _ (List.mem_cons_of_mem _ List.mem_cons_self)

/-- **Launch arguments.** Whatever is launched, at creation or when a node is added, gets one argument for
each of some flags, in the order of their names, and they carry the configuration that was validated; and
the ports and directories of a registered node are those that it was launched with. -/
theorem launches_carry_config :
    (∀ (config : NetworkConfig) (oracle : World.Oracle),
      ∀ x ∈ World.asked oracle (Network.create config).run .blank,
      ∀ launched args, x.2 = .launch launched args → ∃ root node flags,
        [⟨.makeRoot, .ok root⟩] <:+ x.1.history ∧
        (node, launched.name) ∈ config.nodes.zip (Names.resolve config.nodes) ∧
        flags.RenderAs args ∧ CarriesConfig config root node x.1 launched flags) ∧
    (∀ (config : NetworkConfig) (oracle : World.Oracle) (network : Network) (w₀ : World),
      World.run oracle (Network.create config).run .blank = (.ok network, w₀) →
      ∀ (node : NodeConfig) (oracle : World.Oracle) (w : World),
      ∀ x ∈ World.asked oracle (network.add node).run w,
      ∀ launched args, x.2 = .launch launched args → ∃ flags,
        launched.name = chosenName node w.registry ∧ flags.RenderAs args ∧
        CarriesConfig config network.root node x.1 launched flags) ∧
    ∀ (network : Network) (w : World), Visited (fun _ => True) network w →
      ∀ node ∈ w.registry.nodes.values, ∃ (flags : Flags) (args : List String),
        ⟨.launch node.config args, .ok node.process⟩ ∈ w.history ∧ flags.RenderAs args ∧
        CarriesEndpoints node.endpoints flags := by
  refine ⟨fun config oracle x hx => ?_, ?_, fun network w hvisited node hnode => ?_⟩
  · intro launched args hlaunch
    obtain ⟨root, node, flags, hroot, hnode, hargs, hcarries⟩ :=
      (ensures_create_carriesConfig config).asked oracle x hx launched args hlaunch
    exact ⟨root, node, flags, hroot, hnode, Flags.renderAs_iff.mpr hargs, hcarries⟩
  · intro config oracle network w₀ hcreate node oracle' w x hx launched args hlaunch
    have hrun := (ensures_create_carriesConfig config).run oracle
    rw [hcreate] at hrun
    obtain ⟨valid, root, hvalid, rfl⟩ := hrun network rfl
    obtain ⟨flags, hname, hargs, hcarries⟩ :=
      (ensures_add_carriesConfig hvalid node w).asked oracle' x hx launched args hlaunch
    exact ⟨flags, hname, Flags.renderAs_iff.mpr hargs, hcarries⟩
  · obtain ⟨-, bootstrap, hlaunched⟩ :=
      hvisited.has (lasting_launchedIn fun _ => True) (fun _ => trivial) node hnode
    exact ⟨_, _, hlaunched, Flags.renderAs_arguments _, network.carriesEndpoints_launchFlags _ _ _ _⟩

/-- A beacon whose own flag takes back the port that the network's flags declare, so that the one in its
config file counts. -/
def layeredConfig : NetworkConfig :=
  { soloConfig with
    logLevel := some "debug"
    flags := .ofList [("http-port", portValue 9700)]
    nodes :=
      [{ plainNode "a" with
        isBeacon := true
        flags := .ofList [("http-port", .null)]
        configDocument := some "\x7b\"http-port\":9800\x7d" }] }

def HostRequest.isLaunch : HostRequest → Bool
  | .launch _ _ => true
  | _ => false

theorem exists_launch_of_any {asked : List (World × HostRequest)}
    (h : asked.any (·.2.isLaunch)) : ∃ x ∈ asked, ∃ launched args, x.2 = .launch launched args := by
  obtain ⟨⟨w, request⟩, hx, hlaunch⟩ := List.any_eq_true.mp h
  cases request with
  | launch launched args => exact ⟨_, hx, launched, args, rfl⟩
  | _ => cases hlaunch

theorem launches_of_layered_network :
    ∃ (network : Network) (w : World) (x y : World × HostRequest) (launched launched' : NodeConfig)
        (args args' : List String),
      World.run willingHost (Network.create layeredConfig).run .blank = (.ok network, w) ∧
      x ∈ World.asked willingHost (Network.create layeredConfig).run .blank ∧
      x.2 = .launch launched args ∧
      (∃ root node flags, flags.RenderAs args ∧
        CarriesConfig layeredConfig root node x.1 launched flags) ∧
      y ∈ World.asked willingHost (network.add (plainNode "b")).run w ∧
      y.2 = .launch launched' args' ∧
      (∃ flags, flags.RenderAs args' ∧
        CarriesConfig layeredConfig network.root (plainNode "b") y.1 launched' flags) ∧
      Visited (fun _ => True) network w ∧
      ∃ node ∈ w.registry.nodes.values, ∃ (flags : Flags) (args : List String),
        ⟨.launch node.config args, .ok node.process⟩ ∈ w.history ∧ flags.RenderAs args ∧
        CarriesEndpoints node.endpoints flags := by
  have hends :
      (World.asked willingHost (Network.create layeredConfig).run .blank).any (·.2.isLaunch) ∧
      (match World.run willingHost (Network.create layeredConfig).run .blank with
        | (.ok network, w) =>
          (World.asked willingHost (network.add (plainNode "b")).run w).any (·.2.isLaunch) &&
            w.registry.nodes.values ≠ []
        | (.error _, _) => false) = true := by
    decide +kernel
  obtain ⟨hcreated, hadded⟩ := hends
  obtain ⟨x, hx, launched, args, hlaunch⟩ := exists_launch_of_any hcreated
  obtain ⟨root, node, flags, -, -, hargs, hcarries⟩ :=
    launches_carry_config.1 layeredConfig willingHost x hx launched args hlaunch
  split at hadded
  next network w hcreate =>
    rw [Bool.and_eq_true, decide_eq_true_eq] at hadded
    obtain ⟨y, hy, launched', args', hlaunch'⟩ := exists_launch_of_any hadded.1
    obtain ⟨flags', -, hargs', hcarries'⟩ :=
      launches_carry_config.2.1 layeredConfig willingHost network w hcreate (plainNode "b") willingHost
        w y hy launched' args' hlaunch'
    have hvisited : Visited (fun _ => True) network w :=
      .between (.created (fun _ _ _ => trivial) hcreate)
    obtain ⟨registered, hregistered⟩ := List.exists_mem_of_ne_nil _ hadded.2
    exact ⟨network, w, x, y, launched, launched', args, args', hcreate, hx, hlaunch,
      ⟨root, node, flags, hargs, hcarries⟩, hy, hlaunch', ⟨flags', hargs', hcarries'⟩, hvisited,
      registered, hregistered, launches_carry_config.2.2 network w hvisited registered hregistered⟩
  next => cases hadded

end Localnet
