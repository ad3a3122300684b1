import Localnet.Network.Call
import Localnet.Proofs.Network.SetUp
import Localnet.Proofs.Table

/-!
# What the operations on a network come to

Every operation has a few ends, each with its result and the world by then. What is proved of a network
goes through these ends, and never back to the steps of the operations.
-/

namespace Localnet

namespace Network

/-- The name that a node gets when it is added. -/
def chosenName (config : NodeConfig) (r : Registry) : String :=
  if config.name = "" then (Names.nextFree r.nextNumber r.nodes.names).1 else config.name

/-- A registry after a name was chosen. -/
def afterNaming (config : NodeConfig) (r : Registry) : Registry :=
  if config.name = "" then { r with nextNumber := (Names.nextFree r.nextNumber r.nodes.names).2 }
  else r

/-- What validation says of a node that is to be added. -/
def checked (network : Network) (config : NodeConfig) : Except ValidationError ValidatedNode :=
  Validation.validateNode config (addedLabel config) (network.flagsOf config) network.networkId

end Network

open Network (chosenName afterNaming)

def World.named (w : World) (config : NodeConfig) : World :=
  { w with registry := afterNaming config w.registry }

/-- The ends of a start. A node that is ready is registered. -/
inductive StartEnd (network : Network) (isPlan : Plan → Prop) (name : String) (w : World) :
    Except NetworkError Node → World → Prop
  | failed {e : Failure} {w' : World} : SetUpEnd network isPlan w (.error e) w' →
      StartEnd network isPlan name w (.error (.start name e)) w'
  | registered {node : Node} {w' : World} : SetUpEnd network isPlan w (.ok node) w' →
      StartEnd network isPlan name w (.ok node) { w' with registry := w'.registry.register node }

inductive AddEnd (network : Network) (config : NodeConfig) (w : World) :
    Except NetworkError Node → World → Prop
  | stopped : w.registry.stopped → AddEnd network config w (.error .stopped) w
  | invalid {e : ValidationError} : w.registry.stopped = false →
      network.checked config = .error e → AddEnd network config w (.error (.invalid e)) w
  | duplicate {valid : ValidatedNode} : w.registry.stopped = false →
      network.checked config = .ok valid → chosenName config w.registry ∈ w.registry.nodes.names →
      AddEnd network config w (.error (.invalid (.duplicateName (chosenName config w.registry))))
        (w.named config)
  | started {valid : ValidatedNode} {result : Except NetworkError Node} {w' : World} :
      w.registry.stopped = false → network.checked config = .ok valid →
      chosenName config w.registry ∉ w.registry.nodes.names →
      StartEnd network (Plan.IsFor · config (chosenName config w.registry) valid)
        (chosenName config w.registry) (w.named config) result w' →
      AddEnd network config w result w'

/-- What is asked for when a node is added. -/
def AddAsks (network : Network) (config : NodeConfig) (w w' : World) (request : HostRequest) : Prop :=
  w'.registry = afterNaming config w.registry ∧ ∀ config' args, request = .launch config' args →
    ∃ plan : Plan, plan.name ∉ w'.registry.nodes.names ∧ config' = plan.configIn network ∧
      args = plan.argumentsIn network (w'.registry.beacons.filter (·.name ≠ plan.name))

inductive RemoveEnd (name : String) (w : World) : Except NetworkError Unit → World → Prop
  | stopped : w.registry.stopped → RemoveEnd name w (.error .stopped) w
  | notFound : w.registry.stopped = false → w.registry.nodes.get? name = none →
      RemoveEnd name w (.error (.nodeNotFound name)) w
  | removed {node : Node} {reply : Except Failure Unit} : w.registry.stopped = false →
      w.registry.nodes.get? name = some node →
      RemoveEnd name w (.ok ())
        (({ w with registry := w.registry.unregister node }.record (.close node.client) ()).record
          (.stop node.process) reply)

/-- Nodes are shut down one after the other: this is what it makes of a history. -/
inductive ShutDowns : List Node → List Event → List Event → Prop
  | nil {history : List Event} : ShutDowns [] history history
  | cons {node : Node} {rest : List Node} {reply : Except Failure Unit}
      {history history' : List Event} :
      ShutDowns rest (⟨.stop node.process, reply⟩ :: ⟨.close node.client, ()⟩ :: history) history' →
      ShutDowns (node :: rest) history history'

inductive StopEnd (w : World) : Except NetworkError Unit → World → Prop
  | stopped : w.registry.stopped → StopEnd w (.error .stopped) w
  | done {history : List Event} : w.registry.stopped = false →
      ShutDowns w.registry.nodes.values w.history history →
      StopEnd w (.ok ()) ⟨{ w.registry.clear with stopped := true }, history⟩

/-- Whether a request is one of those that shut a node down. -/
def HostRequest.isShutDown : HostRequest → Bool
  | .close _ | .stop _ => true
  | .identity | .unusedPort | .makeRoot | .makeDir _ | .writeFile _ _ | .launch _ _ | .start _
  | .connect _ _ _ _ => false

/-- What is asked for when nodes are shut down: none is registered then that was not before. -/
def ShutDownAsks (w w' : World) (request : HostRequest) : Prop :=
  request.isShutDown ∧ w'.registry.nodes.values ⊆ w.registry.nodes.values

namespace Network

theorem afterNaming_nodes (config : NodeConfig) (r : Registry) :
    (afterNaming config r).nodes = r.nodes := by
  unfold afterNaming
  split <;> rfl

theorem afterNaming_beacons (config : NodeConfig) (r : Registry) :
    (afterNaming config r).beacons = r.beacons := by
  unfold afterNaming
  split <;> rfl

theorem ensures_running {P : World → HostRequest → Prop}
    {Q : Except NetworkError Registry → World → Prop} {w : World}
    (hstopped : w.registry.stopped → Q (.error .stopped) w)
    (hrunning : w.registry.stopped = false → Q (.ok w.registry) w) :
    World.Ensures P Q running.run w := by
  unfold running
  rw [World.ensures_run_bind]
  change World.Ensures P Q (ExceptT.run (if w.registry.stopped then _ else _)) w
  by_cases h : w.registry.stopped
  · rw [if_pos h]
    exact hstopped h
  · rw [if_neg h]
    exact hrunning (by simpa using h)

theorem ensures_addedName {P : World → HostRequest → Prop} {Q : String → World → Prop}
    {config : NodeConfig} {w : World}
    (h : Q (chosenName config w.registry) (w.named config)) :
    World.Ensures P Q (addedName config) w := by
  unfold addedName
  unfold World.named chosenName afterNaming at h
  by_cases hname : config.name = ""
  · rw [if_pos hname, if_pos hname] at h
    rw [if_pos hname]
    exact h
  · rw [if_neg hname, if_neg hname] at h
    rw [if_neg hname]
    exact h

/-- What is to be shown of a start: that of the set-up, with the node registered if it is ready. -/
theorem ensures_startNode_of {P : World → HostRequest → Prop}
    {Q : Except NetworkError Node → World → Prop} {network : Network} {config : NodeConfig}
    {name : String} {valid : ValidatedNode} {Q' : Except Failure Node → World → Prop} {w : World}
    (h : w.Ensures P Q' (network.setUp config name valid).run)
    (hfailed : ∀ e w', Q' (.error e) w' → Q (.error (.start name e)) w')
    (hready : ∀ node w', Q' (.ok node) w' →
      Q (.ok node) { w' with registry := w'.registry.register node }) :
    w.Ensures P Q (network.startNode config name valid).run := by
  unfold startNode
  rw [World.ensures_run_bind, Setup.forNode, World.ensures_run_adapt]
  refine h.mono (fun _ _ => id) fun result w' hend => ?_
  cases result with
  | error e => exact hfailed e w' hend
  | ok node => exact hready node w' hend

theorem ensures_startNode (network : Network) (config : NodeConfig) (name : String)
    (valid : ValidatedNode) (w : World) :
    World.Ensures (SetUpAsks network (Plan.IsFor · config name valid) w.registry)
      (StartEnd network (Plan.IsFor · config name valid) name w)
      (network.startNode config name valid).run w :=
  ensures_startNode_of (network.ensures_setUp config name valid w) (fun _ _ => .failed)
    fun _ _ => .registered

/-- What is to be shown of an addition: that of its start, unless it comes to nothing before. -/
theorem ensures_add_of {P : World → HostRequest → Prop} {Q : Except NetworkError Node → World → Prop}
    {network : Network} {config : NodeConfig} {w : World}
    (hstopped : w.registry.stopped → Q (.error .stopped) w)
    (hinvalid : ∀ e, w.registry.stopped = false → network.checked config = .error e →
      Q (.error (.invalid e)) w)
    (hduplicate : ∀ valid, w.registry.stopped = false → network.checked config = .ok valid →
      chosenName config w.registry ∈ w.registry.nodes.names →
      Q (.error (.invalid (.duplicateName (chosenName config w.registry)))) (w.named config))
    (hstart : ∀ valid, w.registry.stopped = false → network.checked config = .ok valid →
      chosenName config w.registry ∉ w.registry.nodes.names →
      (w.named config).Ensures P Q
        (network.startNode config (chosenName config w.registry) valid).run) :
    w.Ensures P Q (network.add config).run := by
  unfold add
  rw [World.ensures_run_bind]
  refine ensures_running (fun h => hstopped h) fun hrunning => ?_
  change World.Ensures _ _ (ExceptT.run (ExceptT.mk (pure
    ((network.checked config).mapError NetworkError.invalid)) >>= _)) w
  rw [World.ensures_run_bind]
  cases hchecked : network.checked config with
  | error e => exact hinvalid e hrunning hchecked
  | ok valid =>
      change World.Ensures _ _ (ExceptT.run (ExceptT.lift (addedName config) >>= _)) w
      rw [World.ensures_run_bind, ExceptT.run_lift, ← bind_pure_comp, World.ensures_bind]
      refine ensures_addedName ?_
      change World.Ensures _ _ (ExceptT.run (liftM Task.registry >>= _)) (w.named config)
      rw [World.ensures_run_bind]
      change World.Ensures _ _ (ExceptT.run (if (afterNaming config w.registry).nodes.contains
        (chosenName config w.registry) then _ else _)) (w.named config)
      rw [afterNaming_nodes]
      by_cases htaken : w.registry.nodes.contains (chosenName config w.registry)
      · rw [if_pos htaken]
        exact hduplicate valid hrunning hchecked (Table.contains_iff.mp htaken)
      · rw [if_neg htaken]
        exact hstart valid hrunning hchecked (Table.contains_eq_false_iff.mp (Bool.not_eq_true _ ▸ htaken))

theorem ensures_add (network : Network) (config : NodeConfig) (w : World) :
    World.Ensures (AddAsks network config w) (AddEnd network config w)
      (network.add config).run w := by
  refine ensures_add_of (fun h => .stopped h) (fun e => .invalid) (fun valid => .duplicate) ?_
  intro valid hrunning hchecked hfree
  refine (network.ensures_startNode config _ valid _).mono ?_
    fun result w' hend => .started hrunning hchecked hfree hend
  rintro w' request ⟨hregistry, hlaunch⟩
  refine ⟨hregistry, fun config' args hrequest => ?_⟩
  obtain ⟨plan, hplan, hconfig, hargs⟩ := hlaunch config' args hrequest
  refine ⟨plan, ?_, hconfig, hregistry ▸ hargs⟩
  rw [hregistry, hplan.name]
  exact (afterNaming_nodes config w.registry).symm ▸ hfree

theorem ensures_find {P : World → HostRequest → Prop} {Q : Except NetworkError Node → World → Prop}
    {name : String} {w : World} (hstopped : w.registry.stopped → Q (.error .stopped) w)
    (hmissing : w.registry.stopped = false → w.registry.nodes.get? name = none →
      Q (.error (.nodeNotFound name)) w)
    (hfound : ∀ node, w.registry.stopped = false → w.registry.nodes.get? name = some node →
      Q (.ok node) w) :
    World.Ensures P Q (find name).run w := by
  unfold find
  rw [World.ensures_run_bind]
  refine ensures_running hstopped fun hrunning => ?_
  dsimp only [World.orFailed]
  cases hget : w.registry.nodes.get? name with
  | none => exact hmissing hrunning hget
  | some node => exact hfound node hrunning hget

theorem ensures_remove (name : String) (w : World) :
    World.Ensures (ShutDownAsks w) (RemoveEnd name w) (remove name).run w := by
  unfold remove
  rw [World.ensures_run_bind]
  refine ensures_find (fun h => .stopped h) (fun h hget => .notFound h hget) fun node h hget => ?_
  have hvalues : (w.registry.nodes.erase node.name).values ⊆ w.registry.nodes.values :=
    List.map_subset _ (List.filter_subset_self _)
  exact ⟨⟨rfl, hvalues⟩, fun _ => ⟨⟨rfl, hvalues⟩, fun reply => .removed h hget⟩⟩

theorem ensures_shutDownAll (nodes : List Node) (w : World) :
    World.Ensures (fun w' request => request.isShutDown ∧ w'.registry = w.registry)
      (fun _ w' => w'.registry = w.registry ∧ ShutDowns nodes w.history w'.history)
      (shutDownAll nodes) w := by
  induction nodes generalizing w with
  | nil => exact ⟨rfl, .nil⟩
  | cons node rest ih =>
      refine ⟨⟨rfl, rfl⟩, fun _ => ⟨⟨rfl, rfl⟩, fun reply => ?_⟩⟩
      have hrest := ih ((w.record (.close node.client) ()).record (.stop node.process) reply)
      exact hrest.mono (fun _ _ => id) fun _ w' h => ⟨h.1, .cons h.2⟩

theorem ensures_stop (w : World) :
    World.Ensures (ShutDownAsks w) (StopEnd w) stop.run w := by
  unfold stop
  rw [World.ensures_run_bind]
  refine ensures_running (fun h => .stopped h) fun hrunning => ?_
  change World.Ensures _ _ (ExceptT.run (liftM (shutDownAll w.registry.nodes.values) >>= _))
    { w with registry := w.registry.clear }
  rw [World.ensures_run_bind, World.ensures_run_lift]
  refine (ensures_shutDownAll _ _).mono ?_ fun _ w' ⟨hregistry, hshutDowns⟩ => ?_
  · rintro w' request ⟨hrequest, hregistry⟩
    exact ⟨hrequest, hregistry ▸ List.nil_subset _⟩
  · change StopEnd w (.ok ()) ⟨{ w'.registry with stopped := true }, w'.history⟩
    rw [hregistry]
    exact .done hrunning hshutDowns

end Network

/-- A call of a network that is stopped fails at once, and nothing comes of it. -/
theorem ensures_call_of_stopped (network : Network) (call : Call) {w : World}
    (hstopped : w.registry.stopped) :
    World.Ensures (fun _ _ => False) (fun result w' => result = .error .stopped ∧ w' = w)
      (call.operation network).run w := by
  have hrunning : ∀ {Q : Except NetworkError Registry → World → Prop}, Q (.error .stopped) w →
      World.Ensures (fun _ _ => False) Q Network.running.run w :=
    fun hQ => Network.ensures_running (fun _ => hQ) fun h => nomatch hstopped.symm.trans h
  have hfind : ∀ {name : String} {Q : Except NetworkError Node → World → Prop},
      Q (.error .stopped) w → World.Ensures (fun _ _ => False) Q (Network.find name).run w :=
    fun hQ => Network.ensures_find (fun _ => hQ) (fun h _ => nomatch hstopped.symm.trans h)
      fun _ h _ => nomatch hstopped.symm.trans h
  cases call with
  | add config =>
      rw [Call.operation, World.ensures_run_map, Network.add, World.ensures_run_bind]
      exact hrunning ⟨rfl, rfl⟩
  | remove name =>
      rw [Call.operation, World.ensures_run_map, Network.remove, World.ensures_run_bind]
      exact hfind ⟨rfl, rfl⟩
  | get name =>
      rw [Call.operation, World.ensures_run_map]
      exact hfind ⟨rfl, rfl⟩
  | names =>
      rw [Call.operation, World.ensures_run_map, Network.nodeNames, World.ensures_run_bind]
      exact hrunning ⟨rfl, rfl⟩
  | all =>
      rw [Call.operation, World.ensures_run_map, Network.allNodes, World.ensures_run_bind]
      exact hrunning ⟨rfl, rfl⟩
  | stop =>
      rw [Call.operation, World.ensures_run_map, Network.stop, World.ensures_run_bind]
      exact hrunning ⟨rfl, rfl⟩

end Localnet
