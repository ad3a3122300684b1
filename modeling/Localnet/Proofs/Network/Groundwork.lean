import Localnet.Network.Operations
import Localnet.Proofs.Network.Ensures

/-!
# What a node is set up with

A node is prepared before it is launched. The host is asked for what the node's plan needs and for
nothing else: an identity, if the node brings none, then unused ports for those that it does not declare,
then the directories and the files of the node, one after the other.
-/

namespace Localnet

/-- Whether a request is about no process and no client. -/
def HostRequest.isPreparation : HostRequest → Bool
  | .identity | .unusedPort | .makeRoot | .makeDir _ | .writeFile _ _ => true
  | .launch _ _ | .start _ | .stop _ | .connect _ _ _ _ | .close _ => false

/-- What is decided of a node before it is launched. -/
structure Plan where
  config : NodeConfig
  name : String
  settings : NodeSettings
  identity : StakingIdentity
  httpPort : Port
  stakingPort : Port

namespace Plan

def configIn (plan : Plan) (network : Network) : NodeConfig :=
  network.configInUse plan.config plan.name plan.identity

def endpointsIn (plan : Plan) (network : Network) : Endpoints :=
  .ofSettings (Path.join network.root plan.name) plan.settings plan.httpPort plan.stakingPort

def dirsIn (plan : Plan) (network : Network) : List String := (plan.endpointsIn network).dirs

/-- The files that the node is given, with their contents. -/
def filesIn (plan : Plan) (network : Network) : List (String × String) :=
  (NodeFiles.ofDir (plan.endpointsIn network).dir (plan.configIn network)).contents network.genesis
    (plan.configIn network)

/-- Whether a plan is for a validated node with a name. -/
structure IsFor (plan : Plan) (config : NodeConfig) (name : String) (valid : ValidatedNode) :
    Prop where
  config : plan.config = config
  name : plan.name = name
  settings : plan.settings = valid.settings

end Plan

/-- The paths that the files of a node may have. -/
def filePaths (dir : String) : List String :=
  ["genesis.json", "staking.key", "staking.crt", "config.json"].map (Path.join dir)

theorem NodeFiles.config_ofDir {dir document : String} {config : NodeConfig}
    (h : config.configFile? = some document) :
    (ofDir dir config).config = some (Path.join dir "config.json") := by
  rw [ofDir, h]
  rfl

theorem mem_filePaths_of_mem_contents {dir genesis : String} {config : NodeConfig}
    {file : String × String} (h : file ∈ (NodeFiles.ofDir dir config).contents genesis config) :
    file.1 ∈ filePaths dir := by
  unfold NodeFiles.contents NodeFiles.ofDir at h
  cases hfile : config.configFile? with
  | none =>
      rw [hfile] at h
      simp only [Option.map_none, Option.toList_none, List.zip_nil_right, List.append_nil,
        List.mem_cons, List.not_mem_nil, or_false] at h
      rcases h with rfl | rfl | rfl <;> simp [filePaths]
  | some document =>
      rw [hfile] at h
      simp only [Option.map_some, Option.toList_some, List.zip_cons_cons, List.zip_nil_right,
        List.mem_append, List.mem_cons, List.not_mem_nil, or_false] at h
      rcases h with (rfl | rfl | rfl) | rfl <;> simp [filePaths]

/-- Whether something may be asked for while a node is set up under a name. -/
def HostRequest.IsFor (network : Network) (name : String) (settings : NodeSettings) :
    HostRequest → Prop
  | .identity | .unusedPort => True
  | .makeDir path => path ∈ (Endpoints.ofSettings (Path.join network.root name) settings 0 0).dirs
  | .writeFile path _ => path ∈ filePaths (Path.join network.root name)
  | .launch config _ => config.name = name
  | .start process | .stop process => process.node = name
  | .connect node _ _ _ => node = name
  | .makeRoot | .close _ => False

namespace World

/-- A world in which some more was asked for, the latest first. -/
def extendedBy (w : World) (events : List Event) : World := { w with history := events ++ w.history }

@[simp] theorem registry_extendedBy (w : World) (events : List Event) :
    (w.extendedBy events).registry = w.registry := rfl

@[simp] theorem history_extendedBy (w : World) (events : List Event) :
    (w.extendedBy events).history = events ++ w.history := rfl

theorem extendedBy_extendedBy (w : World) (events later : List Event) :
    (w.extendedBy events).extendedBy later = w.extendedBy (later ++ events) := by
  simp [extendedBy]

end World

def IdentityFrom (valid : ValidatedNode) (identity : StakingIdentity) (events : List Event) : Prop :=
  (valid.staking = some identity ∧ events = []) ∨
    (valid.staking = none ∧ events = [⟨.identity, .ok identity⟩])

/-- A port is declared, or it is an unused one that was offered and is not taken. -/
def PortFrom (declared : Option Port) (taken : Port → Prop) (events : List Event) (port : Port) :
    Prop :=
  declared = some port ∨ (declared = none ∧ ⟨.unusedPort, some port⟩ ∈ events ∧ ¬ taken port)

theorem PortFrom.mono {declared : Option Port} {taken : Port → Prop}
    {events events' : List Event} {port : Port} (h : PortFrom declared taken events port)
    (hsub : events ⊆ events') : PortFrom declared taken events' port := by
  rcases h with h | ⟨hnone, hmem, hfree⟩
  · exact .inl h
  · exact .inr ⟨hnone, hsub hmem, hfree⟩

namespace Plan

def made (plan : Plan) (network : Network) : List Event :=
  ((plan.dirsIn network).map fun path => ⟨.makeDir path, .ok ()⟩).reverse

def written (plan : Plan) (network : Network) : List Event :=
  ((plan.filesIn network).map fun file => ⟨.writeFile file.1 file.2, .ok ()⟩).reverse

end Plan

/-- All that was asked for before a node is launched by a plan, the latest first. -/
def Groundwork (network : Network) (valid : ValidatedNode) (r : Registry) (plan : Plan)
    (events : List Event) : Prop :=
  ∃ ids ports, events = plan.written network ++ (plan.made network ++ (ports ++ ids)) ∧
    IdentityFrom valid plan.identity ids ∧ (∀ e ∈ ports, e.request = .unusedPort) ∧
    PortFrom valid.settings.httpPort
      (fun port => port ∈ r.ports ∨ valid.settings.stakingPort = some port) ports plan.httpPort ∧
    PortFrom valid.settings.stakingPort
      (fun port => port ∈ r.ports ∨ port = plan.httpPort) ports plan.stakingPort

/-- A task that leaves the registry as it is and asks only for what is allowed. If it has a result,
that and what was asked for are good. -/
def Adds {α : Type} (r : Registry) (allowed : HostRequest → Prop) (good : α → List Event → Prop)
    (task : Setup α) : Prop :=
  ∀ w : World, w.registry = r →
    w.Ensures (fun w' request => w'.registry = r ∧ allowed request)
      (fun result w' => ∃ events, w' = w.extendedBy events ∧ (∀ e ∈ events, allowed e.request) ∧
        ∀ a, result = .ok a → good a events) task.run

namespace Adds

variable {α β : Type} {r : Registry} {allowed : HostRequest → Prop} {good : α → List Event → Prop}

theorem pure {a : α} (h : good a []) : Adds r allowed good (Pure.pure a) := by
  intro w _
  refine ⟨[], rfl, by simp, fun b hb => ?_⟩
  obtain rfl := Except.ok.inj hb
  exact h

theorem throw {e : Failure} : Adds r allowed good (throw e) := by
  intro w _
  exact ⟨[], rfl, by simp, nofun⟩

theorem mono {good' : α → List Event → Prop} {task : Setup α} (h : Adds r allowed good task)
    (himp : ∀ a events, (∀ e ∈ events, allowed e.request) → good a events → good' a events) :
    Adds r allowed good' task := by
  intro w hw
  refine (h w hw).mono (fun _ _ => id) ?_
  rintro result w' ⟨events, hw', hallowed, hgood⟩
  exact ⟨events, hw', hallowed, fun a ha => himp a events hallowed (hgood a ha)⟩

/-- More may be allowed than is asked for. -/
theorem weaken {allowed' : HostRequest → Prop} {task : Setup α} (h : Adds r allowed good task)
    (hallowed : ∀ request, allowed request → allowed' request) :
    Adds r allowed' (fun a events => good a events ∧ ∀ e ∈ events, allowed e.request) task := by
  intro w hw
  refine (h w hw).mono (fun _ _ hP => ⟨hP.1, hallowed _ hP.2⟩) ?_
  rintro result w' ⟨events, hw', hevents, hgood⟩
  exact ⟨events, hw', fun e he => hallowed _ (hevents e he), fun a ha => ⟨hgood a ha, hevents⟩⟩

theorem bind {first : α → List Event → Prop} {second : β → List Event → Prop} {task : Setup α}
    {f : α → Setup β} (h : Adds r allowed first task)
    (hf : ∀ a events, first a events →
      Adds r allowed (fun b later => second b (later ++ events)) (f a)) :
    Adds r allowed second (task >>= f) := by
  intro w hw
  rw [World.ensures_run_bind]
  refine (h w hw).mono (fun _ _ => id) ?_
  rintro result w' ⟨events, rfl, hallowed, hfirst⟩
  cases result with
  | error e => exact ⟨events, rfl, hallowed, nofun⟩
  | ok a =>
      refine (hf a events (hfirst a rfl) (w.extendedBy events) hw).mono (fun _ _ => id) ?_
      rintro result w' ⟨later, rfl, hlater, hsecond⟩
      refine ⟨later ++ events, w.extendedBy_extendedBy events later, ?_, hsecond⟩
      intro e he
      exact (List.mem_append.mp he).elim (hlater e) (hallowed e)

end Adds

namespace Network

/-- The port that is declared, or one that is picked. -/
def choosePort (declared : Option Port) (taken : Port → Bool) : Setup Port :=
  match declared with
  | some port => return port
  | none => pickPort taken portAttempts

theorem portsOf_eq (settings : NodeSettings) :
    portsOf settings = do
      let r ← Task.registry
      let httpPort ← choosePort settings.httpPort
        fun port => port ∈ r.ports ∨ settings.stakingPort = some port
      let stakingPort ← choosePort settings.stakingPort
        fun port => port ∈ r.ports ∨ port = httpPort
      return (httpPort, stakingPort) := by
  unfold portsOf choosePort
  refine bind_congr fun r => ?_
  cases settings.httpPort <;> cases settings.stakingPort <;> rfl

/-- The first part of a set-up: what is decided of the node, and its directories and files. -/
def prepare (network : Network) (config : NodeConfig) (name : String) (valid : ValidatedNode) :
    Setup Plan := do
  let identity ← identityOf valid
  let (httpPort, stakingPort) ← portsOf valid.settings
  let plan : Plan := ⟨config, name, valid.settings, identity, httpPort, stakingPort⟩
  makeDirs (plan.dirsIn network)
  writeFiles (plan.filesIn network)
  return plan

variable {r : Registry}

theorem adds_pickPort (taken : Port → Bool) (attempts : Nat) :
    Adds r (· = .unusedPort) (fun port events => ⟨.unusedPort, some port⟩ ∈ events ∧ ¬ taken port)
      (pickPort taken attempts) := by
  induction attempts with
  | zero => exact .throw
  | succ attempts ih =>
      rw [pickPort]
      have hask : Adds r (· = .unusedPort) (fun reply events => events = [⟨.unusedPort, reply⟩])
          (ExceptT.lift (Task.ask .unusedPort)) := by
        intro w hw
        refine ⟨⟨hw, rfl⟩, fun answer => ⟨[⟨.unusedPort, answer⟩], rfl, ?_, ?_⟩⟩
        · simp
        · intro reply hreply
          cases hreply
          rfl
      refine hask.bind fun reply events hevents => ?_
      subst hevents
      have hlater := ih.mono fun port events _ h =>
        (⟨List.mem_append_left [⟨.unusedPort, reply⟩] h.1, h.2⟩ :
          _ ∈ events ++ [⟨.unusedPort, reply⟩] ∧ _)
      cases reply with
      | none => exact hlater
      | some port =>
          by_cases htaken : taken port
          · simpa [htaken] using hlater
          · simp only [htaken]
            exact .pure ⟨List.mem_singleton_self _, htaken⟩

theorem adds_identityOf (valid : ValidatedNode) :
    Adds r (· = .identity) (IdentityFrom valid) (identityOf valid) := by
  unfold identityOf
  split
  next identity hbrings => exact .pure (.inl ⟨hbrings, rfl⟩)
  next hnone =>
    intro w hw
    refine ⟨⟨hw, rfl⟩, fun answer => ⟨[⟨.identity, answer⟩], rfl, by simp, ?_⟩⟩
    rintro identity ⟨⟩
    exact .inr ⟨hnone, rfl⟩

theorem adds_choosePort (declared : Option Port) (taken : Port → Bool) :
    Adds r (· = .unusedPort) (fun port events => PortFrom declared (fun port => taken port) events port)
      (choosePort declared taken) := by
  cases declared with
  | some port => exact .pure (.inl rfl)
  | none => exact (adds_pickPort taken portAttempts).mono fun port events _ h => .inr ⟨rfl, h⟩

/-- The ports of a node are each declared or picked, the HTTP port first. -/
theorem adds_portsOf (settings : NodeSettings) :
    Adds r (· = .unusedPort)
      (fun ports events =>
        PortFrom settings.httpPort
          (fun port => port ∈ r.ports ∨ settings.stakingPort = some port) events ports.1 ∧
        PortFrom settings.stakingPort (fun port => port ∈ r.ports ∨ port = ports.1) events ports.2)
      (portsOf settings) := by
  rw [portsOf_eq]
  have hregistry : Adds r (· = .unusedPort) (fun r' events => r' = r ∧ events = [])
      (liftM Task.registry) := by
    intro w hw
    refine ⟨[], rfl, by simp, ?_⟩
    rintro r' ⟨⟩
    exact ⟨hw, rfl⟩
  refine hregistry.bind ?_
  rintro _ _ ⟨rfl, rfl⟩
  refine (adds_choosePort _ _).bind fun httpPort events hhttp => ?_
  refine (adds_choosePort _ _).bind fun stakingPort later hstaking => ?_
  refine .pure ⟨?_, ?_⟩
  · simpa using hhttp.mono (List.subset_append_right later events)
  · simpa using hstaking.mono (List.subset_append_left later events)

theorem adds_makeDirs {allowed : HostRequest → Prop} {paths : List String}
    (hallowed : ∀ path ∈ paths, allowed (.makeDir path)) :
    Adds r allowed
      (fun _ events => events = (paths.map fun path => (⟨.makeDir path, .ok ()⟩ : Event)).reverse)
      (makeDirs paths) := by
  induction paths with
  | nil => exact .pure rfl
  | cons path rest ih =>
      have hask : Adds r allowed (fun _ events => events = [⟨.makeDir path, .ok ()⟩])
          (Setup.ofSystem ("Failed to create " ++ path) (Task.ask (.makeDir path))) := by
        intro w hw
        have hpath := hallowed path List.mem_cons_self
        refine ⟨⟨hw, hpath⟩, fun answer => ⟨[⟨.makeDir path, answer⟩], rfl, by simpa using hpath, ?_⟩⟩
        cases answer with
        | error e => exact nofun
        | ok _ => exact fun _ _ => rfl
      refine hask.bind fun _ events hevents => ?_
      refine (ih fun other hother => hallowed other (List.mem_cons_of_mem path hother)).mono ?_
      rintro _ later - rfl
      rw [hevents, List.map_cons, List.reverse_cons]

theorem adds_writeFiles {allowed : HostRequest → Prop} {files : List (String × String)}
    (hallowed : ∀ file ∈ files, allowed (.writeFile file.1 file.2)) :
    Adds r allowed
      (fun _ events =>
        events = (files.map fun file => (⟨.writeFile file.1 file.2, .ok ()⟩ : Event)).reverse)
      (writeFiles files) := by
  induction files with
  | nil => exact .pure rfl
  | cons file rest ih =>
      obtain ⟨path, text⟩ := file
      have hask : Adds r allowed (fun _ events => events = [⟨.writeFile path text, .ok ()⟩])
          (Setup.ofSystem ("Failed to write " ++ path) (Task.ask (.writeFile path text))) := by
        intro w hw
        have hfile := hallowed (path, text) List.mem_cons_self
        refine ⟨⟨hw, hfile⟩,
          fun answer => ⟨[⟨.writeFile path text, answer⟩], rfl, by simpa using hfile, ?_⟩⟩
        cases answer with
        | error e => exact nofun
        | ok _ => exact fun _ _ => rfl
      refine hask.bind fun _ events hevents => ?_
      refine (ih fun other hother => hallowed other (List.mem_cons_of_mem _ hother)).mono ?_
      rintro _ later - rfl
      rw [hevents, List.map_cons, List.reverse_cons]

/-- A plan's directories do not depend on its ports. -/
theorem isFor_of_mem_dirsIn {network : Network} {plan : Plan} {config : NodeConfig} {name path : String}
    {valid : ValidatedNode} (hplan : plan.IsFor config name valid) (h : path ∈ plan.dirsIn network) :
    (HostRequest.makeDir path).IsFor network name valid.settings := by
  rw [← hplan.name, ← hplan.settings]
  exact h

theorem isFor_of_mem_filesIn {network : Network} {plan : Plan} {config : NodeConfig} {name : String}
    {valid : ValidatedNode} {file : String × String} (hplan : plan.IsFor config name valid)
    (h : file ∈ plan.filesIn network) :
    (HostRequest.writeFile file.1 file.2).IsFor network name valid.settings := by
  rw [← hplan.name]
  exact mem_filePaths_of_mem_contents h

/-- The preparation asks for nothing that is not for its node, and lays the ground for its plan. -/
theorem adds_prepare (network : Network) (config : NodeConfig) (name : String)
    (valid : ValidatedNode) :
    Adds r (fun request => request.isPreparation ∧ request.IsFor network name valid.settings)
      (fun plan events => plan.IsFor config name valid ∧ Groundwork network valid r plan events)
      (network.prepare config name valid) := by
  unfold prepare
  refine ((adds_identityOf valid).weaken ?_).bind ?_
  · rintro _ rfl
    exact ⟨rfl, trivial⟩
  rintro identity ids ⟨hids, -⟩
  refine ((adds_portsOf valid.settings).weaken ?_).bind ?_
  · rintro _ rfl
    exact ⟨rfl, trivial⟩
  rintro ⟨httpPort, stakingPort⟩ ports ⟨⟨hhttp, hstaking⟩, hports⟩
  let plan : Plan := ⟨config, name, valid.settings, identity, httpPort, stakingPort⟩
  have hplan : plan.IsFor config name valid := ⟨rfl, rfl, rfl⟩
  refine (adds_makeDirs fun path hpath => ⟨rfl, isFor_of_mem_dirsIn hplan hpath⟩).bind ?_
  rintro - made hmade
  refine (adds_writeFiles fun file hfile => ⟨rfl, isFor_of_mem_filesIn hplan hfile⟩).bind ?_
  rintro - written hwritten
  refine .pure ⟨hplan, ids, ports, ?_, hids, hports, hhttp, hstaking⟩
  rw [List.nil_append, hmade, hwritten, List.append_assoc, List.append_assoc]
  rfl

end Network

theorem IdentityFrom.request_eq {valid : ValidatedNode} {identity : StakingIdentity} {events : List Event}
    (h : IdentityFrom valid identity events) : ∀ e ∈ events, e.request = .identity := by
  rcases h with ⟨-, rfl⟩ | ⟨-, rfl⟩ <;> simp

/-- All that the ground is laid with is for the node. -/
theorem Groundwork.isFor {network : Network} {config : NodeConfig} {name : String}
    {valid : ValidatedNode} {r : Registry} {plan : Plan} {events : List Event}
    (h : Groundwork network valid r plan events) (hplan : plan.IsFor config name valid) :
    ∀ e ∈ events, e.request.isPreparation ∧ e.request.IsFor network name valid.settings := by
  obtain ⟨ids, ports, rfl, hids, hports, -, -⟩ := h
  intro e he
  simp only [List.mem_append] at he
  rcases he with hwritten | hmade | hport | hid
  · obtain ⟨file, hfile, rfl⟩ := List.mem_map.mp (List.mem_reverse.mp hwritten)
    exact ⟨rfl, Network.isFor_of_mem_filesIn hplan hfile⟩
  · obtain ⟨path, hpath, rfl⟩ := List.mem_map.mp (List.mem_reverse.mp hmade)
    exact ⟨rfl, Network.isFor_of_mem_dirsIn hplan hpath⟩
  · rw [hports e hport]
    exact ⟨rfl, trivial⟩
  · rw [hids.request_eq e hid]
    exact ⟨rfl, trivial⟩

end Localnet
