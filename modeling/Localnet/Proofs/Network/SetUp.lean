import Localnet.Proofs.Network.Groundwork

/-!
# What the set-up of a node comes to

A node is set up in three parts. The preparation decides on a plan and asks for nothing that a handle is
needed for; then a process is launched and started; then a client is asked for. `SetUpEnd` lists the
five ends that this can have, each with the world at that time, and `Turn` lists them with all that was
asked for.
-/

namespace Localnet

/-- A world after some preparations in another one. -/
def World.Prepared (w w' : World) : Prop :=
  w'.registry = w.registry ∧
    ∃ events : List Event, (∀ e ∈ events, e.request.isPreparation) ∧ w'.history = events ++ w.history

namespace Plan

/-- The arguments that the node is launched with, when it is to bootstrap from some beacons. -/
def argumentsIn (plan : Plan) (network : Network) (bootstrap : List Beacon) : List String :=
  Flags.arguments <|
    network.launchFlags (plan.configIn network) (plan.endpointsIn network)
      (NodeFiles.ofDir (plan.endpointsIn network).dir (plan.configIn network)) bootstrap

def nodeIn (plan : Plan) (network : Network) (client : Client) (process : Process) : Node :=
  ⟨plan.name, plan.identity.nodeId, plan.configIn network, plan.endpointsIn network, client, process⟩

def processIn (plan : Plan) (w : World) : Process := ⟨plan.name, w.nextHandle⟩

def launch (plan : Plan) (network : Network) (w : World) (reply : Except Failure Process) : World :=
  w.record (.launch (plan.configIn network)
    (plan.argumentsIn network (w.registry.beacons.filter (·.name ≠ plan.name)))) reply

def start (plan : Plan) (network : Network) (w : World) (reply : Except Failure Unit) : World :=
  (plan.launch network w (.ok (plan.processIn w))).record (.start (plan.processIn w)) reply

def connect (plan : Plan) (network : Network) (w : World) (reply : Except Failure Client) : World :=
  (plan.start network w (.ok ())).record
    (.connect plan.name localhost plan.httpPort Network.requestTimeout) reply

/-- The client that is handed out when the node was launched by a plan in a world and started. -/
def clientIn (plan : Plan) (w : World) : Client := ⟨plan.name, w.nextHandle + 2⟩

end Plan

/-- The ends of a set-up, with what comes of it and the world by then. -/
inductive SetUpEnd (network : Network) (isPlan : Plan → Prop) (w : World) :
    Except Failure Node → World → Prop
  | unprepared {w' : World} {e : Failure} : w.Prepared w' →
      SetUpEnd network isPlan w (.error e) w'
  | unlaunched {w' : World} {plan : Plan} {e : Failure} : w.Prepared w' → isPlan plan →
      SetUpEnd network isPlan w (.error e) (plan.launch network w' (.error e))
  | unstarted {w' : World} {plan : Plan} {e : Failure} : w.Prepared w' → isPlan plan →
      SetUpEnd network isPlan w (.error e) (plan.start network w' (.error e))
  /-- The process is stopped again, or at least asked to. -/
  | unconnected {w' : World} {plan : Plan} {e : Failure} {reply : Except Failure Unit} :
      w.Prepared w' → isPlan plan →
      SetUpEnd network isPlan w (.error e)
        ((plan.connect network w' (.error e)).record (.stop (plan.processIn w')) reply)
  | ready {w' : World} {plan : Plan} : w.Prepared w' → isPlan plan →
      SetUpEnd network isPlan w
        (.ok (plan.nodeIn network (plan.clientIn w') (plan.processIn w')))
        (plan.connect network w' (.ok (plan.clientIn w')))

/-- What a set-up asks for: the registry stays as it is, and a launch is by a plan. -/
def SetUpAsks (network : Network) (isPlan : Plan → Prop) (r : Registry) (w : World)
    (request : HostRequest) : Prop :=
  w.registry = r ∧ ∀ config args, request = .launch config args →
    ∃ plan, isPlan plan ∧ config = plan.configIn network ∧
      args = plan.argumentsIn network (r.beacons.filter (·.name ≠ plan.name))

/-- The ends of a set-up, with all that was asked for. -/
inductive Turn (network : Network) (config : NodeConfig) (name : String) (valid : ValidatedNode)
    (w : World) : Except Failure Node → World → Prop
  | unprepared {events : List Event} {e : Failure} :
      (∀ x ∈ events, x.request.isPreparation ∧ x.request.IsFor network name valid.settings) →
      Turn network config name valid w (.error e) (w.extendedBy events)
  | unlaunched {plan : Plan} {events : List Event} {e : Failure} : plan.IsFor config name valid →
      Groundwork network valid w.registry plan events →
      Turn network config name valid w (.error e)
        (plan.launch network (w.extendedBy events) (.error e))
  | unstarted {plan : Plan} {events : List Event} {e : Failure} : plan.IsFor config name valid →
      Groundwork network valid w.registry plan events →
      Turn network config name valid w (.error e)
        (plan.start network (w.extendedBy events) (.error e))
  | unconnected {plan : Plan} {events : List Event} {e : Failure} {reply : Except Failure Unit} :
      plan.IsFor config name valid → Groundwork network valid w.registry plan events →
      Turn network config name valid w (.error e)
        ((plan.connect network (w.extendedBy events) (.error e)).record
          (.stop (plan.processIn (w.extendedBy events))) reply)
  | ready {plan : Plan} {events : List Event} : plan.IsFor config name valid →
      Groundwork network valid w.registry plan events →
      Turn network config name valid w
        (.ok (plan.nodeIn network (plan.clientIn (w.extendedBy events))
          (plan.processIn (w.extendedBy events))))
        (plan.connect network (w.extendedBy events) (.ok (plan.clientIn (w.extendedBy events))))

/-- What is asked for in a set-up. A node is launched when all is prepared. -/
def TurnAsks (network : Network) (config : NodeConfig) (name : String) (valid : ValidatedNode)
    (w w' : World) (request : HostRequest) : Prop :=
  w'.registry = w.registry ∧ request.IsFor network name valid.settings ∧
    ∀ config' args, request = .launch config' args → ∃ plan events,
      plan.IsFor config name valid ∧ Groundwork network valid w.registry plan events ∧
      w' = w.extendedBy events ∧ config' = plan.configIn network ∧
      args = plan.argumentsIn network (w.registry.beacons.filter (·.name ≠ name))

namespace Network

/-- What is left of a set-up once the node is prepared. -/
def bringUp (network : Network) (plan : Plan) : Setup Node := do
  let bootstrap := (← Task.registry).beacons.filter (·.name ≠ plan.name)
  let process ← ExceptT.mk
    (Task.ask (.launch (plan.configIn network) (plan.argumentsIn network bootstrap)))
  ExceptT.mk (Task.ask (.start process))
  let client ← connectTo plan.name process plan.httpPort
  return plan.nodeIn network client process

/-- A node that is prepared is launched and started, and asked for nothing else but its client; the
process is asked to stop if there is none. -/
theorem ensures_bringUp {P : World → HostRequest → Prop} {Q : Except Failure Node → World → Prop}
    {network : Network} {plan : Plan} {w : World}
    (hlaunch : P w (.launch (plan.configIn network)
      (plan.argumentsIn network (w.registry.beacons.filter (·.name ≠ plan.name)))))
    (hstart : P (plan.launch network w (.ok (plan.processIn w))) (.start (plan.processIn w)))
    (hconnect : P (plan.start network w (.ok ()))
      (.connect plan.name localhost plan.httpPort requestTimeout))
    (hstop : ∀ e, P (plan.connect network w (.error e)) (.stop (plan.processIn w)))
    (hunlaunched : ∀ e, Q (.error e) (plan.launch network w (.error e)))
    (hunstarted : ∀ e, Q (.error e) (plan.start network w (.error e)))
    (hunconnected : ∀ e reply, Q (.error e)
      ((plan.connect network w (.error e)).record (.stop (plan.processIn w)) reply))
    (hready : Q (.ok (plan.nodeIn network (plan.clientIn w) (plan.processIn w)))
      (plan.connect network w (.ok (plan.clientIn w)))) :
    World.Ensures P Q (network.bringUp plan).run w := by
  -- the registry is only looked at here, and nothing has changed it
  change World.Ensures _ _ (ExceptT.run (ExceptT.mk (Task.ask
    (.launch (plan.configIn network) (plan.argumentsIn network
      (w.registry.beacons.filter (·.name ≠ plan.name))))) >>= _)) w
  rw [World.ensures_run_bind]
  refine ⟨hlaunch, fun answer => ?_⟩
  cases answer with
  | error e => exact hunlaunched e
  | ok launched =>
      change World.Ensures _ _ (ExceptT.run (ExceptT.mk (Task.ask (.start (plan.processIn w))) >>= _))
        (plan.launch network w (.ok (plan.processIn w)))
      rw [World.ensures_run_bind]
      refine ⟨hstart, fun answer => ?_⟩
      cases answer with
      | error e => exact hunstarted e
      | ok started =>
          change World.Ensures _ _ (ExceptT.run (connectTo plan.name (plan.processIn w) plan.httpPort >>= _))
            (plan.start network w (.ok ()))
          unfold connectTo
          rw [World.ensures_run_bind, World.ensures_run_bind]
          refine ⟨hconnect, fun answer => ?_⟩
          cases answer with
          | ok connected =>
              change Q (.ok (plan.nodeIn network (plan.clientIn w) (plan.processIn w)))
                (plan.connect network w (.ok (plan.clientIn w)))
              exact hready
          | error e => exact ⟨hstop e, fun reply => hunconnected e reply⟩

theorem setUp_eq (network : Network) (config : NodeConfig) (name : String) (valid : ValidatedNode) :
    network.setUp config name valid = network.prepare config name valid >>= network.bringUp := by
  simp only [prepare, bind_assoc, pure_bind]
  rfl

/-- Every set-up comes to one of the five ends, and asks for nothing on the way that is not for its
node. -/
theorem ensures_turn (network : Network) (config : NodeConfig) (name : String) (valid : ValidatedNode)
    (w : World) :
    w.Ensures (TurnAsks network config name valid w) (Turn network config name valid w)
      (network.setUp config name valid).run := by
  have hP : ∀ w' request, w'.registry = w.registry →
      request.IsFor network name valid.settings → (∀ config args, request ≠ .launch config args) →
      TurnAsks network config name valid w w' request :=
    fun _ _ hregistry hfor hother =>
      ⟨hregistry, hfor, fun config args heq => absurd heq (hother config args)⟩
  rw [setUp_eq, World.ensures_run_bind]
  refine (network.adds_prepare config name valid w rfl).mono ?_ ?_
  · rintro w' request ⟨hregistry, hrequest, hfor⟩
    refine hP w' request hregistry hfor ?_
    rintro config args rfl
    cases hrequest
  rintro result w' ⟨events, rfl, hevents, hgood⟩
  cases result with
  | error e => exact .unprepared hevents
  | ok plan =>
      obtain ⟨hplan, hground⟩ := hgood plan rfl
      have hname := hplan.name
      refine ensures_bringUp ⟨rfl, hname, ?_⟩ (hP _ _ rfl hname nofun) (hP _ _ rfl hname nofun)
        (fun _ => hP _ _ rfl hname nofun) (fun _ => .unlaunched hplan hground)
        (fun _ => .unstarted hplan hground) (fun _ _ => .unconnected hplan hground)
        (.ready hplan hground)
      rintro config' args ⟨⟩
      exact ⟨plan, events, hplan, hground, rfl, rfl, hname ▸ rfl⟩

end Network

section

variable {network : Network} {config : NodeConfig} {name : String} {valid : ValidatedNode} {w w' : World}

theorem Turn.setUpEnd {result : Except Failure Node} (h : Turn network config name valid w result w') :
    SetUpEnd network (Plan.IsFor · config name valid) w result w' := by
  have hprepared : ∀ {events : List Event},
      (∀ e ∈ events, e.request.isPreparation ∧ e.request.IsFor network name valid.settings) →
      w.Prepared (w.extendedBy events) := fun hevents => ⟨rfl, _, fun e he => (hevents e he).1, rfl⟩
  cases h with
  | unprepared hevents => exact .unprepared (hprepared hevents)
  | unlaunched hplan hground => exact .unlaunched (hprepared (hground.isFor hplan)) hplan
  | unstarted hplan hground => exact .unstarted (hprepared (hground.isFor hplan)) hplan
  | unconnected hplan hground => exact .unconnected (hprepared (hground.isFor hplan)) hplan
  | ready hplan hground => exact .ready (hprepared (hground.isFor hplan)) hplan

/-- Every set-up comes to one of the five ends. -/
theorem Network.ensures_setUp (network : Network) (config : NodeConfig) (name : String)
    (valid : ValidatedNode) (w : World) :
    World.Ensures (SetUpAsks network (Plan.IsFor · config name valid) w.registry)
      (SetUpEnd network (Plan.IsFor · config name valid) w)
      (network.setUp config name valid).run w := by
  refine (network.ensures_turn config name valid w).mono ?_ fun _ _ => Turn.setUpEnd
  rintro w' request ⟨hregistry, -, hlaunch⟩
  refine ⟨hregistry, fun config' args hrequest => ?_⟩
  obtain ⟨plan, -, hplan, -, -, hconfig, hargs⟩ := hlaunch config' args hrequest
  exact ⟨plan, hplan, hconfig, hplan.name ▸ hargs⟩

end

end Localnet
