import Localnet.Proofs.Network.Deeds
import Localnet.Proofs.Network.Teardown
import Localnet.Service.Commands

/-!
# Serving

A command that serves a network comes to one of a few ends, whatever its surroundings do. With one of
them the network is left with its processes running: the moment at which the wait for health is to end
is computed after the network was created, and there is no such moment if the timeout is too long.
-/

namespace Localnet.Service

/-- All that a command depends on: the host of its network, and the replies to what it asks of others,
by what it asked before. -/
structure Surroundings where
  host : World.Oracle
  reply : List Request → (request : Request) → request.Reply

structure Scene where
  /-- The network that runs, if one was created. -/
  network : Option (Network × World)
  /-- All that was asked for but to say a line, the latest first. -/
  asked : List Request

variable {α β : Type} {surroundings : Surroundings} {s : Scene}

/-- What a request comes to. The network is created and called by way of its host; a wait for health
leaves it as it is. -/
def respond (surroundings : Surroundings) (s : Scene) : (request : Request) → request.Reply × Scene
  | .say _ => ((), s)
  | .create config =>
    let (result, w) := World.run surroundings.host (Network.create config).run .blank
    (result, ⟨result.toOption.map (·, w), .create config :: s.asked⟩)
  | .call call =>
    match s.network with
    | some (network, w) =>
      let (result, w') := network.perform surroundings.host call w
      (result, ⟨some (network, w'), .call call :: s.asked⟩)
    | none => (.error .stopped, ⟨none, .call call :: s.asked⟩)
  | .read path =>
    (surroundings.reply s.asked (.read path), { s with asked := .read path :: s.asked })
  | .identities => (surroundings.reply s.asked .identities, { s with asked := .identities :: s.asked })
  | .clock => (surroundings.reply s.asked .clock, { s with asked := .clock :: s.asked })
  | .healthy deadline =>
    (surroundings.reply s.asked (.healthy deadline), { s with asked := .healthy deadline :: s.asked })
  | .interrupt => (surroundings.reply s.asked .interrupt, { s with asked := .interrupt :: s.asked })

def enact (surroundings : Surroundings) :
    Program Request Request.Reply α → Scene → α × Scene
  | .done a, s => (a, s)
  | .ask request next, s =>
    let (reply, s') := respond surroundings s request
    enact surroundings (next reply) s'

theorem enact_bind (p : Program Request Request.Reply α) (f : α → Program Request Request.Reply β)
    (s : Scene) :
    enact surroundings (p >>= f) s =
      enact surroundings (f (enact surroundings p s).1) (enact surroundings p s).2 := by
  induction p generalizing s with
  | done a => rfl
  | ask request next ih => exact ih _ _

theorem enact_run_bind (task : Service α) (f : α → Service β) (s : Scene) :
    enact surroundings (task >>= f).run s =
      match enact surroundings task.run s with
      | (.ok a, s') => enact surroundings (f a).run s'
      | (.error e, s') => (.error e, s') := by
  rw [ExceptT.run_bind, enact_bind]
  rcases enact surroundings task.run s with ⟨result, s'⟩
  cases result <;> rfl

theorem enact_ask_bind {request : Request} {reply : request.Reply} {s' : Scene}
    (hrespond : respond surroundings s request = (reply, s')) (f : request.Reply → Service β) :
    enact surroundings (ask request >>= f).run s = enact surroundings (f reply).run s' := by
  change enact surroundings (f (respond surroundings s request).1).run (respond surroundings s request).2 = _
  rw [hrespond]

theorem enact_say_bind (line : String) (f : Unit → Service β) (s : Scene) :
    enact surroundings (say line >>= f).run s = enact surroundings (f ()).run s := rfl

theorem orFail_ok_bind {ε : Type} (failure : ε → Failure) (a : α) (f : α → Service β) :
    orFail failure (.ok a) >>= f = f a := rfl

theorem enact_error_bind {ε : Type} (failure : ε → Failure) (e : ε) (f : α → Service β) (s : Scene) :
    enact surroundings (orFail failure (.error e) >>= f).run s = (.error (.failed (failure e)), s) := rfl

theorem enact_sayAll (lines : List String) (s : Scene) :
    enact surroundings (sayAll lines).run s = (.ok (), s) := by
  induction lines with
  | nil => rfl
  | cons line rest ih => exact ih

theorem enact_sayAll_bind (lines : List String) (f : Unit → Service β) (s : Scene) :
    enact surroundings (sayAll lines >>= f).run s = enact surroundings (f ()).run s := by
  rw [enact_run_bind, enact_sayAll]

/-! ### The ends of a service -/

/-- The network that is created, and the world by then. -/
def Creates (host : World.Oracle) (config : NetworkConfig) (network : Network) (w : World) : Prop :=
  World.run host (Network.create config).run .blank = (.ok network, w)

/-- The time at which a network has been created, if `asked` was asked for before. -/
def Surroundings.now (surroundings : Surroundings) (config : NetworkConfig) (asked : List Request) : Nat :=
  surroundings.reply (.create config :: asked) .clock

/-- All that is asked for up to the wait for health. -/
def askedToWait (config : NetworkConfig) (deadline : Nat) (asked : List Request) : List Request :=
  .healthy deadline :: .clock :: .create config :: asked

/-- The ends of serving a network. Once it was created it is torn down, unless the time is too short. -/
inductive ServeEnd (surroundings : Surroundings) (config : NetworkConfig) (seconds : Nat)
    (asked : List Request) : Except Stop Unit → Scene → Prop
  | uncreated {e : NetworkError} {w : World}
      (hcreate : World.run surroundings.host (Network.create config).run .blank = (.error e, w)) :
      ServeEnd surroundings config seconds asked
        (.error (.failed (.because "Failed to create local network" e.failure)))
        ⟨none, .create config :: asked⟩
  /-- The clock never gets to the end of the wait. -/
  | endless {network : Network} {w : World} (hcreate : Creates surroundings.host config network w)
      (hlimit : clockLimit ≤ surroundings.now config asked / 1000 + seconds) :
      ServeEnd surroundings config seconds asked (.error .noSuchMoment)
        ⟨some (network, w), .clock :: .create config :: asked⟩
  | unhealthy {network : Network} {w w' : World} {deadline : Nat} {e : NetworkError}
      (hcreate : Creates surroundings.host config network w)
      (hlimit : surroundings.now config asked / 1000 + seconds < clockLimit)
      (hdeadline : deadline = surroundings.now config asked + seconds * 1000)
      (hhealth : surroundings.reply (.clock :: .create config :: asked) (.healthy deadline) = .error e)
      (htorn : w.TornDown w') :
      ServeEnd surroundings config seconds asked
        (.error (.failed (.because "Local network did not become healthy" e.failure)))
        ⟨some (network, w'), .call .stop :: askedToWait config deadline asked⟩
  /-- Nothing can interrupt it. -/
  | uninterrupted {network : Network} {w : World} {deadline : Nat} {e : SystemError}
      (hcreate : Creates surroundings.host config network w)
      (hlimit : surroundings.now config asked / 1000 + seconds < clockLimit)
      (hdeadline : deadline = surroundings.now config asked + seconds * 1000)
      (hhealth : surroundings.reply (.clock :: .create config :: asked) (.healthy deadline) = .ok ())
      (hinterrupt : surroundings.reply (.call .all :: askedToWait config deadline asked) .interrupt =
        .error e) :
      ServeEnd surroundings config seconds asked (.error (.failed ⟨e.describe, []⟩))
        ⟨some (network, w), .interrupt :: .call .all :: askedToWait config deadline asked⟩
  | interrupted {network : Network} {w w' : World} {deadline : Nat}
      (hcreate : Creates surroundings.host config network w)
      (hlimit : surroundings.now config asked / 1000 + seconds < clockLimit)
      (hdeadline : deadline = surroundings.now config asked + seconds * 1000)
      (hhealth : surroundings.reply (.clock :: .create config :: asked) (.healthy deadline) = .ok ())
      (hinterrupt : surroundings.reply (.call .all :: askedToWait config deadline asked) .interrupt =
        .ok ())
      (htorn : w.TornDown w') :
      ServeEnd surroundings config seconds asked (.ok ())
        ⟨some (network, w'),
          .call .stop :: .interrupt :: .call .all :: askedToWait config deadline asked⟩

variable {config : NetworkConfig} {seconds : Nat} {asked : List Request} {network : Network} {w : World}

theorem enact_momentIn_bind_of_lt {now : Nat} (hnow : surroundings.reply s.asked .clock = now)
    (hlimit : now / 1000 + seconds < clockLimit) (f : Nat → Service β) :
    enact surroundings (momentIn seconds >>= f).run s =
      enact surroundings (f (now + seconds * 1000)).run ⟨s.network, .clock :: s.asked⟩ := by
  have hclock : respond surroundings s .clock = (now, ⟨s.network, .clock :: s.asked⟩) := by
    rw [respond, hnow]
  rw [momentIn, bind_assoc, enact_ask_bind hclock, if_pos hlimit]
  rfl

theorem enact_momentIn_bind_of_le {now : Nat} (hnow : surroundings.reply s.asked .clock = now)
    (hlimit : clockLimit ≤ now / 1000 + seconds) (f : Nat → Service β) :
    enact surroundings (momentIn seconds >>= f).run s =
      (.error .noSuchMoment, ⟨s.network, .clock :: s.asked⟩) := by
  have hclock : respond surroundings s .clock = (now, ⟨s.network, .clock :: s.asked⟩) := by
    rw [respond, hnow]
  rw [momentIn, bind_assoc, enact_ask_bind hclock, if_neg (Nat.not_lt_of_le hlimit)]
  rfl

theorem respond_create (hcreate : Creates surroundings.host config network w) :
    respond surroundings ⟨none, asked⟩ (.create config) =
      (.ok network, ⟨some (network, w), .create config :: asked⟩) := by
  unfold Creates at hcreate
  simp [respond, hcreate, Except.toOption]

theorem respond_create_error {e : NetworkError}
    (hcreate : World.run surroundings.host (Network.create config).run .blank = (.error e, w)) :
    respond surroundings ⟨none, asked⟩ (.create config) =
      (.error e, ⟨none, .create config :: asked⟩) := by
  simp [respond, hcreate, Except.toOption]

theorem respond_all (hrunning : w.registry.stopped = false) :
    respond surroundings ⟨some (network, w), asked⟩ (.call .all) =
      (.ok (.nodes w.registry.nodes), ⟨some (network, w), .call .all :: asked⟩) := by
  simp [respond, perform_all hrunning]

/-- A network that was created can be stopped. -/
theorem respond_stop (hcreate : Creates surroundings.host config network w)
    (asked : List Request) :
    ∃ w', w.TornDown w' ∧ respond surroundings ⟨some (network, w), asked⟩ (.call .stop) =
      (.ok .done, ⟨some (network, w'), .call .stop :: asked⟩) := by
  obtain ⟨w', hstop, htorn⟩ := run_stop_of_create hcreate surroundings.host
  refine ⟨w', htorn, ?_⟩
  simp [respond, Network.perform, hstop]

/-- What is done with a network that is healthy. -/
def keepUp (network : Network) : Service Unit := do
  say s!"\nNetwork {network.networkId.toNat} is healthy."
  say separator
  sayAll (nodeLines (← orFail NetworkError.failure (← ask (.call .all))))
  say separator
  say "Press Ctrl+C to stop.\n"
  orFail (fun e => ⟨e.describe, []⟩) (← ask .interrupt)
  say "\nShutting down network..."
  let _ ← orFail NetworkError.failure (← ask (.call .stop))
  say "Bye!"

/-- What is done with a network that does not become healthy. -/
def giveUp (e : NetworkError) : Service Unit := do
  let _ ← ask (.call .stop)
  throw (.failed (.because "Local network did not become healthy" e.failure))

/-- What is done with a network, by how the wait for its health ended. -/
def goOn (network : Network) : Except NetworkError Unit → Service Unit
  | .ok () => keepUp network
  | .error e => giveUp e

theorem serve_eq (config : NetworkConfig) (seconds : Nat) : serve config seconds = (do
    say "Starting local network..."
    say ("   • Name:   " ++ if config.name = "" then "(unnamed)" else config.name)
    say s!"   • Nodes:  {config.nodes.length}"
    let network ← orFail (fun e => .because "Failed to create local network" e.failure)
      (← ask (.create config))
    let deadline ← momentIn seconds
    goOn network (← ask (.healthy deadline))) := by
  unfold serve
  refine bind_congr fun _ => bind_congr fun _ => bind_congr fun _ => bind_congr fun _ =>
    bind_congr fun network => bind_congr fun deadline => bind_congr fun health => ?_
  cases health <;> rfl

theorem enact_giveUp (hcreate : Creates surroundings.host config network w) (e : NetworkError)
    (asked : List Request) : ∃ w', w.TornDown w' ∧
      enact surroundings (giveUp e).run ⟨some (network, w), asked⟩ =
        (.error (.failed (.because "Local network did not become healthy" e.failure)),
          ⟨some (network, w'), .call .stop :: asked⟩) := by
  obtain ⟨w', htorn, hstop⟩ := respond_stop hcreate asked
  exact ⟨w', htorn, enact_ask_bind hstop _⟩

theorem enact_keepUp_uninterrupted (hrunning : w.registry.stopped = false) {e : SystemError}
    (hinterrupt : surroundings.reply (.call .all :: asked) .interrupt = .error e) :
    enact surroundings (keepUp network).run ⟨some (network, w), asked⟩ =
      (.error (.failed ⟨e.describe, []⟩), ⟨some (network, w), .interrupt :: .call .all :: asked⟩) := by
  have hrespond : respond surroundings ⟨some (network, w), .call .all :: asked⟩ .interrupt =
      (.error e, ⟨some (network, w), .interrupt :: .call .all :: asked⟩) := by
    rw [respond, hinterrupt]
  unfold keepUp
  rw [enact_say_bind, enact_say_bind, enact_ask_bind (respond_all hrunning), orFail_ok_bind,
    enact_sayAll_bind, enact_say_bind, enact_say_bind, enact_ask_bind hrespond, enact_error_bind]

theorem enact_keepUp_interrupted (hcreate : Creates surroundings.host config network w)
    (hrunning : w.registry.stopped = false)
    (hinterrupt : surroundings.reply (.call .all :: asked) .interrupt = .ok ()) :
    ∃ w', w.TornDown w' ∧ enact surroundings (keepUp network).run ⟨some (network, w), asked⟩ =
      (.ok (), ⟨some (network, w'), .call .stop :: .interrupt :: .call .all :: asked⟩) := by
  have hrespond : respond surroundings ⟨some (network, w), .call .all :: asked⟩ .interrupt =
      (.ok (), ⟨some (network, w), .interrupt :: .call .all :: asked⟩) := by
    rw [respond, hinterrupt]
  obtain ⟨w', htorn, hstop⟩ := respond_stop hcreate (.interrupt :: .call .all :: asked)
  refine ⟨w', htorn, ?_⟩
  unfold keepUp
  rw [enact_say_bind, enact_say_bind, enact_ask_bind (respond_all hrunning), orFail_ok_bind,
    enact_sayAll_bind, enact_say_bind, enact_say_bind, enact_ask_bind hrespond, orFail_ok_bind,
    enact_say_bind, enact_ask_bind hstop, orFail_ok_bind]
  rfl

theorem respond_healthy {deadline : Nat} {health : Except NetworkError Unit}
    (hhealth : surroundings.reply s.asked (.healthy deadline) = health) :
    respond surroundings s (.healthy deadline) =
      (health, ⟨s.network, .healthy deadline :: s.asked⟩) := by
  rw [respond, hhealth]

theorem serveEnd_of_wait {deadline : Nat} (hcreate : Creates surroundings.host config network w)
    (hlimit : surroundings.now config asked / 1000 + seconds < clockLimit)
    (hdeadline : deadline = surroundings.now config asked + seconds * 1000) :
    ∀ {result s'}, enact surroundings (ask (.healthy deadline) >>= goOn network).run
        ⟨some (network, w), .clock :: .create config :: asked⟩ = (result, s') →
      ServeEnd surroundings config seconds asked result s' := by
  intro result s' hend
  cases hhealth : surroundings.reply (.clock :: .create config :: asked) (.healthy deadline) with
  | error e =>
      rw [enact_ask_bind (respond_healthy hhealth)] at hend
      obtain ⟨w', htorn, hgiveUp⟩ := enact_giveUp hcreate e (askedToWait config deadline asked)
      cases hgiveUp.symm.trans hend
      exact .unhealthy hcreate hlimit hdeadline hhealth htorn
  | ok _ =>
      rw [enact_ask_bind (respond_healthy hhealth)] at hend
      obtain ⟨roll, -, huntouched⟩ := untouched_of_create hcreate
      cases hinterrupt : surroundings.reply (.call .all :: askedToWait config deadline asked) .interrupt with
      | error e =>
          cases (enact_keepUp_uninterrupted huntouched.running hinterrupt).symm.trans hend
          exact .uninterrupted hcreate hlimit hdeadline hhealth hinterrupt
      | ok _ =>
          obtain ⟨w', htorn, hkeepUp⟩ :=
            enact_keepUp_interrupted hcreate huntouched.running hinterrupt
          cases hkeepUp.symm.trans hend
          exact .interrupted hcreate hlimit hdeadline hhealth hinterrupt htorn

theorem serveEnd_serve (config : NetworkConfig) (seconds : Nat) (asked : List Request) :
    ServeEnd surroundings config seconds asked
      (enact surroundings (serve config seconds).run ⟨none, asked⟩).1
      (enact surroundings (serve config seconds).run ⟨none, asked⟩).2 := by
  rcases hend : enact surroundings (serve config seconds).run ⟨none, asked⟩ with ⟨result, s'⟩
  rw [serve_eq, enact_say_bind, enact_say_bind, enact_say_bind] at hend
  rcases hcreate : World.run surroundings.host (Network.create config).run .blank with ⟨e | network, w⟩
  · rw [enact_ask_bind (respond_create_error hcreate), enact_error_bind] at hend
    cases hend
    exact .uncreated hcreate
  rw [enact_ask_bind (respond_create hcreate), orFail_ok_bind] at hend
  by_cases hlimit : surroundings.now config asked / 1000 + seconds < clockLimit
  · rw [enact_momentIn_bind_of_lt rfl hlimit] at hend
    exact serveEnd_of_wait hcreate hlimit rfl hend
  · have hbeyond := Nat.le_of_not_lt hlimit
    rw [enact_momentIn_bind_of_le rfl hbeyond] at hend
    cases hend
    exact .endless hcreate hbeyond

/-! ### Commands -/

/-- The ends of a command: it comes to nothing before there is a network, it only checks, or it serves. -/
inductive CommandEnd (surroundings : Surroundings) :
    CommandLine.Command → Except Stop Unit → Scene → Prop
  | refused {command : CommandLine.Command} {f : Failure} {asked : List Request} :
      CommandEnd surroundings command (.error (.failed f)) ⟨none, asked⟩
  | validated {path : String} {asked : List Request} :
      CommandEnd surroundings (.validate path) (.ok ()) ⟨none, asked⟩
  | run {path : String} {seconds : Nat} {config : NetworkConfig} {result : Except Stop Unit} {s : Scene}
      (hload : NetworkConfig.load path (surroundings.reply [] (.read path)) = .ok config)
      (hserve : ServeEnd surroundings config seconds [.read path] result s) :
      CommandEnd surroundings (.run path seconds) result s
  | standard {binaryPath : String} {seconds : Nat} {identity : Nat → StakingIdentity}
      {result : Except Stop Unit} {s : Scene}
      (hidentity : surroundings.reply [] .identities = .ok identity)
      (hserve : ServeEnd surroundings (.standard binaryPath identity) seconds [.identities] result s) :
      CommandEnd surroundings (.standard binaryPath seconds) result s

theorem enact_load_bind (path : String) (f : NetworkConfig → Service β) :
    enact surroundings (load path >>= f).run ⟨none, []⟩ =
      match NetworkConfig.load path (surroundings.reply [] (.read path)) with
      | .ok config => enact surroundings (f config).run ⟨none, [.read path]⟩
      | .error e => (.error (.failed e.failure), ⟨none, [.read path]⟩) := by
  have hread : respond surroundings ⟨none, []⟩ (.read path) =
      (surroundings.reply [] (.read path), ⟨none, [.read path]⟩) := rfl
  rw [load, bind_assoc, enact_ask_bind hread]
  cases NetworkConfig.load path (surroundings.reply [] (.read path)) <;> rfl

/-- **Teardown.** A command that has created a network asks each of its processes to stop, before it
fails for want of health or once it was interrupted, unless the time that it is to wait ends beyond the
last moment of the clock. -/
theorem command_ends (surroundings : Surroundings) (command : CommandLine.Command) :
    CommandEnd surroundings command (enact surroundings (runCommand command).run ⟨none, []⟩).1
      (enact surroundings (runCommand command).run ⟨none, []⟩).2 := by
  cases command with
  | run path seconds =>
      rw [runCommand, enact_load_bind]
      cases hload : NetworkConfig.load path (surroundings.reply [] (.read path)) with
      | error e => exact .refused
      | ok config => exact .run hload (serveEnd_serve _ _ _)
  | standard binaryPath seconds =>
      have hask : respond surroundings ⟨none, []⟩ .identities =
          (surroundings.reply [] .identities, ⟨none, [.identities]⟩) := rfl
      rw [runCommand, enact_ask_bind hask]
      cases hidentity : surroundings.reply [] .identities with
      | error e => exact .refused
      | ok identity =>
          rw [orFail_ok_bind]
          exact .standard hidentity (serveEnd_serve _ _ _)
  | validate path =>
      rw [runCommand, validate, enact_load_bind]
      cases NetworkConfig.load path (surroundings.reply [] (.read path)) with
      | error e => exact .refused
      | ok config =>
          dsimp only
          cases Validation.validate config with
          | error e => exact .refused
          | ok valid =>
              rw [orFail_ok_bind, enact_say_bind, enact_say_bind, enact_sayAll]
              exact .validated

/-! ### A wait that is too long -/

/-- Surroundings that grant everything, at the beginning of time. -/
def kindly : Surroundings where
  host := willingHost
  reply _
    | .say _ => ()
    | .read _ => .error .notFound
    | .identities => .error ⟨"none", []⟩
    | .create _ => .error .stopped
    | .clock => 0
    | .healthy _ => .ok ()
    | .call _ => .error .stopped
    | .interrupt => .ok ()

theorem eq_start_of_opened {e : Event} {process : Process} (h : processes.opened e = some process) :
    e = ⟨.start process, .ok ()⟩ := by
  obtain ⟨request, reply⟩ := e
  cases request with
  | start started =>
      cases reply with
      | ok _ =>
          obtain rfl := Option.some.inj h
          rfl
      | error e => cases h
  | _ => cases h

theorem exists_left_running (hseconds : clockLimit ≤ seconds) : ∃ network w process,
    enact kindly (serve soloConfig seconds).run ⟨none, []⟩ =
      (.error .noSuchMoment, ⟨some (network, w), [.clock, .create soloConfig]⟩) ∧
    ⟨.start process, .ok ()⟩ ∈ w.history ∧ timesOf processes.closed process w.history = 0 := by
  have hok : (World.run willingHost (Network.create soloConfig).run .blank).1.isOk := by decide +kernel
  obtain ⟨network, w, hcreate⟩ := World.run_eq_ok_of_isOk hok
  have hstarts : (World.run willingHost (Network.create soloConfig).run .blank).2.history.any
      fun e => (processes.opened e).isSome := by decide +kernel
  rw [hcreate] at hstarts
  obtain ⟨e, he, hopened⟩ := List.any_eq_true.mp hstarts
  obtain ⟨process, hprocess⟩ := Option.isSome_iff_exists.mp hopened
  obtain ⟨roll, -, huntouched⟩ := untouched_of_create hcreate
  have hnow : kindly.reply (.create soloConfig :: []) .clock = 0 := rfl
  refine ⟨network, w, process, ?_, ?_, List.countP_eq_zero.mpr fun e he => ?_⟩
  · have hbeyond : clockLimit ≤ 0 / 1000 + seconds := by omega
    have hcreate' : Creates kindly.host soloConfig network w := hcreate
    rw [serve_eq, enact_say_bind, enact_say_bind, enact_say_bind,
      enact_ask_bind (respond_create hcreate'), orFail_ok_bind, enact_momentIn_bind_of_le hnow hbeyond]
  · exact eq_start_of_opened hprocess ▸ he
  · simp [huntouched.unstopped e he]

/-- A timeout that the command line takes, and with which a process is left running that nobody ever
asks to stop. -/
theorem left_running_of_longest_timeout :
    CommandLine.seconds? "18446744073709551615" = some 0xffffffffffffffff ∧
    ∃ network w process,
      enact kindly (serve soloConfig 0xffffffffffffffff).run ⟨none, []⟩ =
        (.error .noSuchMoment, ⟨some (network, w), [.clock, .create soloConfig]⟩) ∧
      ⟨.start process, .ok ()⟩ ∈ w.history ∧ timesOf processes.closed process w.history = 0 :=
  ⟨by decide +kernel, exists_left_running (by unfold clockLimit; omega)⟩

end Localnet.Service
