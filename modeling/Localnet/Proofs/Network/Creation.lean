import Localnet.Proofs.Network.Life

/-!
# Creation, node by node

The nodes of a network are set up one after the other, each under its name. If one of them does not come
up, the creation fails with it: the ones before it are left running, and nothing is asked for the ones
after it.
-/

namespace Localnet

open List (Forall₂)
open Network (requestTimeout)

/-- A node of a configuration, with its name and with what validation makes of it. -/
abbrev Entry := NodeConfig × String × ValidatedNode

/-- Entries that are the nodes of a configuration, in order. -/
structure Aligned (config : NetworkConfig) (networkId : NetworkId) (entries : List Entry) : Prop where
  configs : entries.map (·.1) = config.nodes
  names : entries.map (·.2.1) = Names.resolve config.nodes
  valid : ∀ entry ∈ entries, ∀ label,
    Validation.validateNode entry.1 label (config.flagsOf entry.1) networkId = .ok entry.2.2

/-- A node came up with some events, the latest first. -/
structure CameUp (network : Network) (entry : Entry) (up : Node × List Event) : Prop where
  name : up.1.name = entry.2.1
  config : ∃ identity, up.1.config = network.configInUse entry.1 entry.2.1 identity
  asked : ∀ e ∈ up.2, e.request.IsFor network entry.2.1 entry.2.2.settings ∧ ¬ e.request.isShutDown
  launched : ∃ args, ⟨.launch up.1.config args, .ok up.1.process⟩ ∈ up.2
  started : ⟨.start up.1.process, .ok ()⟩ ∈ up.2
  connected : ⟨.connect entry.2.1 localhost up.1.endpoints.httpPort requestTimeout,
    .ok up.1.client⟩ ∈ up.2

/-- A node did not come up with some events, the latest first: its process was asked to stop only if it
had started and there was no client for it. -/
structure GaveUp (network : Network) (entry : Entry) (events : List Event) : Prop where
  asked : ∀ e ∈ events, e.request.IsFor network entry.2.1 entry.2.2.settings
  clientless : ∀ e ∈ events, clients.opened e = none
  stopped : ∀ process reply earlier, ⟨.stop process, reply⟩ :: earlier <:+ events →
    ⟨.start process, .ok ()⟩ ∈ earlier ∧
      ∃ port e, ⟨.connect entry.2.1 localhost port requestTimeout, .error e⟩ ∈ earlier

/-- Some nodes came up one after the other: all, or the ones before the first that did not. -/
inductive InTurn (network : Network) (entries : List Entry) (earlier : List Event)
    (ups : List (Node × List Event)) : Except NetworkError Unit → List Event → Prop
  | all {history : List Event} : Forall₂ (CameUp network) entries ups →
      history = (ups.map (·.2)).reverse.flatten ++ earlier →
      InTurn network entries earlier ups (.ok ()) history
  | upTo {before after : List Entry} {entry : Entry} {events history : List Event} {e : Failure} :
      entries = before ++ entry :: after → Forall₂ (CameUp network) before ups →
      GaveUp network entry events →
      history = events ++ ((ups.map (·.2)).reverse.flatten ++ earlier) →
      InTurn network entries earlier ups (.error (.start entry.2.1 e)) history

/-- The name of the node that a request is about. -/
def HostRequest.node? : HostRequest → Option String
  | .launch config _ => some config.name
  | .start process | .stop process => some process.node
  | .connect node _ _ _ => some node
  | .close client => some client.node
  | .identity | .unusedPort | .makeRoot | .makeDir _ | .writeFile _ _ => none

/-- A process was started and a client handed out, and neither was taken back. -/
def LeftRunning (node : Node) (history : List Event) : Prop :=
  timesOf processes.opened node.process history = 1 ∧
    timesOf processes.closed node.process history = 0 ∧
    timesOf clients.opened node.client history = 1 ∧ timesOf clients.closed node.client history = 0

/-! ### One node -/

section

variable {network : Network} {config : NodeConfig} {name : String} {valid : ValidatedNode} {w w' : World}

/-- Nothing is shut down yet, and no client is there yet. -/
theorem Event.of_isPreparation {e : Event} (h : e.request.isPreparation) :
    ¬ e.request.isShutDown ∧ clients.opened e = none := by
  obtain ⟨request, reply⟩ := e
  cases request <;> first | exact ⟨Bool.false_ne_true, rfl⟩ | cases h

theorem Groundwork.asked {plan : Plan} {events : List Event} (hplan : plan.IsFor config name valid)
    (h : Groundwork network valid w.registry plan events) :
    ∀ e ∈ events, (e.request.IsFor network name valid.settings ∧ ¬ e.request.isShutDown) ∧
      clients.opened e = none := by
  intro e he
  obtain ⟨hpreparation, hfor⟩ := h.isFor hplan e he
  obtain ⟨hshutDown, hopened⟩ := e.of_isPreparation hpreparation
  exact ⟨⟨hfor, hshutDown⟩, hopened⟩

theorem GaveUp.of_not_isShutDown {entry : Entry} {events : List Event}
    (h : ∀ e ∈ events, (e.request.IsFor network entry.2.1 entry.2.2.settings ∧
      ¬ e.request.isShutDown) ∧ clients.opened e = none) :
    GaveUp network entry events := by
  refine ⟨fun e he => (h e he).1.1, fun e he => (h e he).2, fun process reply earlier hsuffix => ?_⟩
  exact absurd rfl (h _ (hsuffix.subset List.mem_cons_self)).1.2

theorem Turn.cameUp {node : Node} (h : Turn network config name valid w (.ok node) w') :
    ∃ events, w' = w.extendedBy events ∧ CameUp network (config, name, valid) (node, events) := by
  cases h with
  | @ready plan events hplan hground =>
      have hasked := hground.asked hplan
      obtain rfl := hplan.name
      refine ⟨_ :: _ :: _ :: events, rfl, rfl, ⟨plan.identity, hplan.config ▸ rfl⟩, ?_,
        ⟨_, List.mem_cons_of_mem _ (List.mem_cons_of_mem _ List.mem_cons_self)⟩,
        List.mem_cons_of_mem _ List.mem_cons_self, List.mem_cons_self⟩
      simp only [List.forall_mem_cons]
      exact ⟨⟨rfl, nofun⟩, ⟨rfl, nofun⟩, ⟨rfl, nofun⟩, fun e he => (hasked e he).1⟩

theorem Turn.gaveUp {e : Failure} (h : Turn network config name valid w (.error e) w') :
    ∃ events, w' = w.extendedBy events ∧ GaveUp network (config, name, valid) events := by
  cases h with
  | @unprepared events _ hevents =>
      refine ⟨events, rfl, .of_not_isShutDown fun e he => ?_⟩
      obtain ⟨hshutDown, hopened⟩ := e.of_isPreparation (hevents e he).1
      exact ⟨⟨(hevents e he).2, hshutDown⟩, hopened⟩
  | @unlaunched plan events _ hplan hground =>
      refine ⟨_ :: events, rfl, .of_not_isShutDown ?_⟩
      exact List.forall_mem_cons.mpr ⟨⟨⟨hplan.name, nofun⟩, rfl⟩, hground.asked hplan⟩
  | @unstarted plan events _ hplan hground =>
      refine ⟨_ :: _ :: events, rfl, .of_not_isShutDown ?_⟩
      simp only [List.forall_mem_cons]
      exact ⟨⟨⟨hplan.name, nofun⟩, rfl⟩, ⟨⟨hplan.name, nofun⟩, rfl⟩, hground.asked hplan⟩
  | @unconnected plan events _ reply hplan hground =>
      have hasked := hground.asked hplan
      obtain rfl := hplan.name
      refine ⟨_ :: _ :: _ :: _ :: events, rfl, ?_, ?_, fun process reply' earlier hsuffix => ?_⟩
      · simp only [List.forall_mem_cons]
        exact ⟨rfl, rfl, rfl, rfl, fun e he => (hasked e he).1.1⟩
      · simp only [List.forall_mem_cons]
        exact ⟨rfl, rfl, rfl, rfl, fun e he => (hasked e he).2⟩
      · simp only [List.suffix_cons_iff] at hsuffix
        rcases hsuffix with heq | heq | heq | heq | hsuffix
        · cases heq
          exact ⟨List.mem_cons_of_mem _ List.mem_cons_self, plan.httpPort, e, List.mem_cons_self⟩
        · cases heq
        · cases heq
        · cases heq
        · exact absurd rfl (hasked _ (hsuffix.subset List.mem_cons_self)).1.2

theorem HostRequest.IsFor.name_eq {request : HostRequest} {settings : NodeSettings} {other : String}
    (h : request.IsFor network name settings) (hnode : request.node? = some other) : other = name := by
  cases request <;> cases hnode <;> first | exact h | exact h.elim

end

/-! ### All nodes -/

theorem World.InOrder.leftRunning {roll : List Node} {w : World} (h : w.InOrder roll) {node : Node}
    (hnode : node ∈ roll) : LeftRunning node w.history := by
  rcases h.books.processes.settled node.process with ⟨-, hopened, hclosed⟩ | ⟨hnot, -⟩
  · rcases h.books.clients.settled node.client with ⟨-, hopened', hclosed'⟩ | ⟨hnot, -⟩
    · exact ⟨hopened, hclosed, hopened', hclosed'⟩
    · exact absurd (List.mem_map_of_mem hnode) hnot
  · exact absurd (List.mem_map_of_mem hnode) hnot

theorem name_mem_of_cameUp {network : Network} {entries : List Entry} {ups : List (Node × List Event)}
    (h : Forall₂ (CameUp network) entries ups) {e : Event} {name : String}
    (he : e ∈ (ups.map (·.2)).reverse.flatten) (hname : e.request.node? = some name) :
    name ∈ entries.map (·.2.1) := by
  induction h with
  | nil => cases he
  | @cons entry up entries ups hup _ ih =>
      rw [List.map_cons, List.reverse_cons, List.flatten_append, List.mem_append] at he
      rcases he with he | he
      · exact List.mem_cons_of_mem _ (ih he)
      · have hmem : e ∈ up.2 := by simpa using he
        exact (hup.asked e hmem).1.name_eq hname ▸ List.mem_cons_self

/-- The nodes that are asked about are those that came up, and the next one at most. -/
theorem InTurn.name_mem {network : Network} {entries : List Entry} {earlier history : List Event}
    {ups : List (Node × List Event)} {result : Except NetworkError Unit}
    (h : InTurn network entries earlier ups result history)
    (hearlier : ∀ e ∈ earlier, e.request.node? = none) {e : Event} (he : e ∈ history) {name : String}
    (hname : e.request.node? = some name) :
    name ∈ (entries.take (ups.length + 1)).map (·.2.1) := by
  have hnot : e ∉ earlier := fun hmem => nomatch hname.symm.trans (hearlier e hmem)
  cases h with
  | all hups hhistory =>
      have hmem : e ∈ (ups.map (·.2)).reverse.flatten := by
        rw [hhistory, List.mem_append] at he
        exact he.resolve_right hnot
      rw [List.take_of_length_le (by rw [hups.length_eq]; omega)]
      exact name_mem_of_cameUp hups hmem hname
  | @upTo before after entry events _ _ hentries hups hgave hhistory =>
      have htake : entries.take (ups.length + 1) = before ++ [entry] := by
        rw [hentries, ← hups.length_eq, List.take_append, List.take_of_length_le (Nat.le_succ _)]
        simp
      rw [htake, List.map_append, List.mem_append]
      rw [hhistory, List.mem_append, List.mem_append] at he
      rcases he with he | he | he
      · exact .inr (List.mem_singleton.mpr ((hgave.asked e he).name_eq hname))
      · exact .inl (name_mem_of_cameUp hups he hname)
      · exact absurd he hnot

/-- Nodes with distinct names that are not registered come up in turn. -/
theorem ensures_startNodes_inTurn (network : Network) (entries : List Entry) {roll : List Node}
    {w : World} (h : w.InOrder roll)
    (hnodup : (roll.map (·.name) ++ entries.map (·.2.1)).Nodup) :
    w.Ensures World.anything
      (fun result w' => ∃ ups, InTurn network entries w.history ups result w'.history ∧
        w'.InOrder (roll ++ ups.map (·.1)))
      (network.startNodes entries).run := by
  induction entries generalizing roll w with
  | nil => exact ⟨[], .all .nil rfl, by simpa using h⟩
  | cons entry rest ih =>
      obtain ⟨config, name, valid⟩ := entry
      have hfree : name ∉ w.registry.nodes.names :=
        h.enrolled.not_mem_names hnodup List.mem_cons_self
      rw [Network.startNodes, World.ensures_run_bind]
      have hsetUp := (network.ensures_turn config name valid w).ends fun _ _ => id
      refine Network.ensures_startNode_of hsetUp ?_ ?_
      · intro e w' hturn
        have hw' := (StartEnd.failed hturn.setUpEnd).inOrder h hfree
        obtain ⟨events, rfl, hgave⟩ := hturn.gaveUp
        have hfirst : (config, name, valid) :: rest = [] ++ (config, name, valid) :: rest := rfl
        exact ⟨[], .upTo hfirst .nil hgave rfl, hw'⟩
      · intro node w' hturn
        have hw' := (StartEnd.registered hturn.setUpEnd).inOrder h hfree
        obtain ⟨events, rfl, hup⟩ := hturn.cameUp
        have hnodup' : ((roll ++ [node]).map (·.name) ++ rest.map (·.2.1)).Nodup := by
          have hname : node.name = name := hup.name
          simpa [hname] using hnodup
        refine (ih hw' hnodup').mono (fun _ _ => id) ?_
        rintro result w'' ⟨ups, hinTurn, hw''⟩
        refine ⟨(node, events) :: ups, ?_, by simpa [newcomers] using hw''⟩
        cases hinTurn with
        | all hups hhistory => exact .all (.cons hup hups) (by simpa using hhistory)
        | upTo hentries hups hgave hhistory =>
            exact .upTo (congrArg _ hentries) (.cons hup hups) hgave (by simpa using hhistory)

/-- The nodes of an accepted configuration, with their names. -/
theorem Validation.Accepted.aligned {config : NetworkConfig} {valid : ValidatedNetwork}
    (h : Accepted config valid) :
    Aligned config valid.networkId (config.nodes.zip (valid.names.zip valid.nodes)) := by
  have hnodes := length_of_validateNodes h.nodes
  have hnames : valid.names.length = config.nodes.length := by rw [h.names, Names.length_resolve]
  refine ⟨?_, h.zip_names, fun entry hentry label => ?_⟩
  · refine List.map_fst_zip ?_
    rw [List.length_zip]
    omega
  · have hzip : (config.nodes.zip (valid.names.zip valid.nodes)).map (fun entry => (entry.1, entry.2.2)) =
        config.nodes.zip valid.nodes := by
      calc (config.nodes.zip (valid.names.zip valid.nodes)).map (fun entry => (entry.1, entry.2.2))
          = config.nodes.zip ((valid.names.zip valid.nodes).map Prod.snd) := List.zip_map_right.symm
        _ = config.nodes.zip valid.nodes := by
          rw [List.map_snd_zip]
          omega
    have hmem : (entry.1, entry.2.2) ∈ config.nodes.zip valid.nodes := by
      rw [← hzip]
      exact List.mem_map_of_mem hentry
    exact validateNode_of_mem_zip h.nodes hmem label

/-- What there is to say of a creation that has a root directory. -/
structure CreatedInTurn (config : NetworkConfig) (network : Network) (entries : List Entry)
    (ups : List (Node × List Event)) (result : Except NetworkError Network) (w : World) : Prop where
  aligned : Aligned config network.networkId entries
  inTurn : InTurn network entries [⟨.makeRoot, .ok network.root⟩] ups (result.map fun _ => ()) w.history
  leftRunning : ∀ up ∈ ups, LeftRunning up.1 w.history
  /-- What comes after the node that did not come up is not touched. -/
  untouched : ∀ later ∈ entries.drop (ups.length + 1), ∀ e ∈ w.history,
    e.request.node? ≠ some later.2.1
  created : ∀ network', result = .ok network' → network' = network ∧
    w.registry.nodes.names.Perm (Names.resolve config.nodes) ∧
    ∀ up ∈ ups, w.registry.nodes.get? up.1.name = some up.1

theorem map_name_of_cameUp {network : Network} {entries : List Entry} {ups : List (Node × List Event)}
    (h : Forall₂ (CameUp network) entries ups) :
    (ups.map (·.1)).map (·.name) = entries.map (·.2.1) := by
  induction h with
  | nil => rfl
  | cons hup _ ih =>
      rw [List.map_cons, List.map_cons, List.map_cons, hup.name, ih]

theorem InTurn.created {config : NetworkConfig} {valid : ValidatedNetwork} {root : String}
    {ups : List (Node × List Event)} {result : Except NetworkError Unit} {w : World}
    (haccepted : Validation.Accepted config valid)
    (h : InTurn (.ofValid config valid root) (config.nodes.zip (valid.names.zip valid.nodes))
      [⟨.makeRoot, .ok root⟩] ups result w.history)
    (hw : w.InOrder (ups.map (·.1))) :
    CreatedInTurn config (.ofValid config valid root) (config.nodes.zip (valid.names.zip valid.nodes))
      ups (result.map fun _ => .ofValid config valid root) w where
  aligned := haccepted.aligned
  inTurn := by cases result <;> exact h
  leftRunning up hup := hw.leftRunning (List.mem_map_of_mem hup)
  untouched later hlater e he hname := by
    have hmem := h.name_mem (List.forall_mem_singleton.mpr rfl) he hname
    have hnodup := haccepted.nodup
    rw [← haccepted.aligned.names,
      ← List.take_append_drop (ups.length + 1) (config.nodes.zip (valid.names.zip valid.nodes)),
      List.map_append] at hnodup
    exact List.disjoint_of_nodup_append hnodup hmem (List.mem_map_of_mem hlater)
  created network' hcreated := by
    cases result with
    | error e => cases hcreated
    | ok _ =>
        refine ⟨(Except.ok.inj hcreated).symm, ?_, fun up hup => ?_⟩
        · cases h with
          | all hups _ =>
              have hnames := (map_name_of_cameUp hups).trans haccepted.aligned.names
              exact hnames ▸ hw.enrolled.names_perm.symm
        · exact hw.enrolled.get?_of_mem (List.mem_map_of_mem hup)

/-- **Creation.** A configuration that is not accepted is answered with what validation says of it, and
nothing is asked of the host. Otherwise, once there is a root directory, the nodes are set up in turn. -/
theorem created_in_turn {config : NetworkConfig} {oracle : World.Oracle}
    {result : Except NetworkError Network} {w : World}
    (h : World.run oracle (Network.create config).run .blank = (result, w)) :
    (∀ e, Validation.validate config = .error e → result = .error (.invalid e) ∧ w = .blank) ∧
    ∀ valid, Validation.validate config = .ok valid →
      (∃ fault, result = .error (.io fault) ∧ w = World.blank.record .makeRoot (.error fault)) ∨
      ∃ root entries ups,
        CreatedInTurn config (.ofValid config valid root) entries ups result w := by
  suffices hensures : World.blank.Ensures World.anything
      (fun result w => match Validation.validate config with
        | .error e => result = .error (.invalid e) ∧ w = .blank
        | .ok valid =>
          (∃ fault, result = .error (.io fault) ∧ w = World.blank.record .makeRoot (.error fault)) ∨
          ∃ root entries ups,
            CreatedInTurn config (.ofValid config valid root) entries ups result w)
      (Network.create config).run by
    have hrun := hensures.run oracle
    rw [h] at hrun
    refine ⟨fun e he => ?_, fun valid hvalid => ?_⟩
    · rwa [he] at hrun
    · rwa [hvalid] at hrun
  refine ensures_create_of ?_ (fun _ _ => trivial) ?_ ?_
  · intro e he
    rw [he]
    exact ⟨rfl, rfl⟩
  · intro valid fault hvalid
    rw [hvalid]
    exact .inl ⟨fault, rfl, rfl⟩
  · intro valid root hvalid
    have haccepted := Validation.accepted_of_validate hvalid
    refine (ensures_startNodes_inTurn (.ofValid config valid root) _ (.rooted root valid.generated)
      (haccepted.aligned.names ▸ haccepted.nodup)).mono (fun _ _ => id) ?_
    rintro result w ⟨ups, hinTurn, hw⟩
    rw [List.nil_append] at hw
    rw [hvalid]
    exact .inr ⟨root, _, ups, hinTurn.created haccepted hw⟩

/-- The node that could not be started, if this is what failed. -/
def failedStart? {α : Type} : Except NetworkError α → Option String
  | .error (.start name _) => some name
  | .error _ | .ok _ => none

theorem failedStart?_eq_some_iff {α : Type} {result : Except NetworkError α} {name : String} :
    failedStart? result = some name ↔ ∃ e, result = .error (.start name e) := by
  unfold failedStart?
  split <;> simp_all

/-- A host that has clients for one node only. -/
def choosyHost (name : String) : World.Oracle := fun history request =>
  match request with
  | .connect node _ _ _ => if node = name then .ok () else .error ⟨"refused", []⟩
  | request => willingHost history request

/-- Three nodes, of which the second does not come up. -/
def trioConfig : NetworkConfig :=
  { soloConfig with nodes := soloConfig.nodes ++ [plainNode "b", plainNode ""] }

theorem created_in_turn_up_to_second :
    ∃ (e : Failure) (w : World) (root : String) (valid : ValidatedNetwork) (entries : List Entry)
        (ups : List (Node × List Event)),
      World.run (choosyHost "a") (Network.create trioConfig).run .blank = (.error (.start "b" e), w) ∧
      Validation.validate trioConfig = .ok valid ∧
      CreatedInTurn trioConfig (.ofValid trioConfig valid root) entries ups (.error (.start "b" e)) w := by
  have hends : (failedStart? (World.run (choosyHost "a") (Network.create trioConfig).run .blank).1 ==
      some "b") = true := by
    decide +kernel
  have hvalid : (Validation.validate trioConfig).isOk := by decide +kernel
  rcases hrun : World.run (choosyHost "a") (Network.create trioConfig).run .blank with ⟨result, w⟩
  rw [hrun] at hends
  obtain ⟨e, rfl⟩ := failedStart?_eq_some_iff.mp (eq_of_beq hends)
  cases hvalidate : Validation.validate trioConfig with
  | error _ =>
      rw [hvalidate] at hvalid
      cases hvalid
  | ok valid =>
      rcases (created_in_turn hrun).2 valid hvalidate with ⟨fault, hfault, -⟩ | hcreated
      · cases hfault
      · obtain ⟨root, entries, ups, hcreated⟩ := hcreated
        exact ⟨e, w, root, valid, entries, ups, rfl, rfl, hcreated⟩

end Localnet
