import Localnet.Proofs.Network.Stopping

/-!
# A new network and its teardown

A network that was created is running, and none of the processes that were started for it was asked to
stop. Stopping it asks each of them once. A wait for health changes nothing about it.
-/

namespace Localnet

open World (anything)

variable {network : Network} {config : NetworkConfig} {oracle : World.Oracle} {w w' : World}

/-- A network is running, and no process was ever asked to stop. -/
structure World.Untouched (w : World) : Prop where
  running : w.registry.stopped = false
  unstopped : ∀ e ∈ w.history, processes.closed e = none

/-- After a world, every process that had been started by then was asked to stop once. -/
structure World.TornDown (w w' : World) : Prop where
  empty : w'.registry.nodes = ∅
  asked : ∃ events, w'.history = events ++ w.history ∧
    ∀ process, ⟨.start process, .ok ()⟩ ∈ w.history → timesOf processes.closed process events = 1

theorem closed_eq_none_of_isPreparation {e : Event} (h : e.request.isPreparation) :
    processes.closed e = none := by
  obtain ⟨request, reply⟩ := e
  cases request <;> first | rfl | cases h

theorem SetUpEnd.untouched {isPlan : Plan → Prop} {node : Node} (h : w.Untouched)
    (hend : SetUpEnd network isPlan w (.ok node) w') : w'.Untouched := by
  cases hend with
  | ready hprepared hplan =>
      obtain ⟨hregistry, events, hevents, hhistory⟩ := hprepared
      refine ⟨(congrArg Registry.stopped hregistry).trans h.running, fun e he => ?_⟩
      simp only [Plan.connect, Plan.start, Plan.launch, World.record, hhistory] at he
      -- the client, the start and the launch come after the preparation
      rcases List.mem_cons.mp he with rfl | he
      · rfl
      rcases List.mem_cons.mp he with rfl | he
      · rfl
      rcases List.mem_cons.mp he with rfl | he
      · rfl
      rcases List.mem_append.mp he with he | he
      · exact closed_eq_none_of_isPreparation (hevents e he)
      · exact h.unstopped e he

theorem World.untouched_rooted (root : String) (generated : Nat) :
    (World.rooted root generated).Untouched :=
  ⟨rfl, fun e he => by obtain rfl := List.mem_singleton.mp he; rfl⟩

theorem ensures_create_untouched (config : NetworkConfig) :
    World.blank.Ensures anything
      (fun result w' => result.isOk → ∃ roll, w'.InOrder roll ∧ w'.Untouched)
      (Network.create config).run := by
  refine ensures_create_of (fun _ _ => nofun) (fun _ _ => trivial) (fun _ _ _ => nofun) ?_
  intro valid root hvalid
  have haccepted := Validation.accepted_of_validate hvalid
  refine (ensures_startNodes_of
    (Q := fun result w => result.isOk → ∃ roll, w.InOrder roll ∧ w.Untouched)
    (fun _ w => w.Untouched) haccepted.nodup ?_ (fun _ horder h _ => ⟨_, horder, h⟩)
    (.rooted root valid.generated) (World.untouched_rooted root valid.generated)
    haccepted.zip_names).mono (fun _ _ h => h) fun result w h hok => ?_
  · intro roll w config name valid _ _ h _ _
    refine (Network.ensures_startNode _ config name valid w).ends
      fun result w' hend => ⟨fun e he => nofun, fun node hnode => ?_⟩
    subst hnode
    cases hend with
    | registered hsetUp => exact ⟨(hsetUp.untouched h).running, (hsetUp.untouched h).unstopped⟩
  · cases result with
    | error e => cases hok
    | ok _ => exact h rfl

theorem untouched_of_create
    (hcreate : World.run oracle (Network.create config).run .blank = (.ok network, w)) :
    ∃ roll, w.InOrder roll ∧ w.Untouched := by
  have hrun := (ensures_create_untouched config).run oracle
  rw [hcreate] at hrun
  exact hrun rfl

/-- Every process that was started is held by a node on the roll. -/
theorem World.Untouched.held {roll : List Node} {process : Process} (h : w.Untouched)
    (horder : w.InOrder roll) (hstarted : ⟨.start process, .ok ()⟩ ∈ w.history) :
    process ∈ roll.map (·.process) := by
  have hopened : 0 < timesOf processes.opened process w.history := timesOf_pos_of_mem hstarted rfl
  have hclosed : timesOf processes.closed process w.history = 0 :=
    List.countP_eq_zero.mpr fun e he => by simp [h.unstopped e he]
  rcases horder.books.processes.settled process with ⟨hheld, -⟩ | ⟨-, heq, -⟩
  · exact hheld
  · omega

theorem World.Untouched.tornDown {roll : List Node} (h : w.Untouched) (horder : w.InOrder roll)
    (hshutDown : w.ShutDownFrom w') : w.TornDown w' := by
  obtain ⟨events, hhistory, -, honce⟩ := hshutDown.history
  refine ⟨by rw [hshutDown.registry], events, hhistory, fun process hstarted => ?_⟩
  obtain ⟨node, hnode, rfl⟩ := List.mem_map.mp (h.held horder hstarted)
  exact (honce node (horder.enrolled.values.mem_iff.mp hnode)).2

theorem run_stop_of_create
    (hcreate : World.run oracle (Network.create config).run .blank = (.ok network, w))
    (oracle' : World.Oracle) :
    ∃ w', World.run oracle' (Call.stop.operation network).run w = (.ok .done, w') ∧ w.TornDown w' := by
  obtain ⟨roll, horder, huntouched⟩ := untouched_of_create hcreate
  obtain ⟨w', hstop, hshutDown⟩ :
      ∃ w', World.run oracle' (Call.stop.operation network).run w = (.ok .done, w') ∧
        w.ShutDownFrom w' :=
    run_stop_of_running horder huntouched.running oracle'
  exact ⟨w', hstop, huntouched.tornDown horder hshutDown⟩

/-! ### Waits alone -/

namespace Machine

variable {m m' : Machine} {move : Move} {moves : List Move} {interval now : Nat}

/-- Nobody but waits uses a network. -/
structure OnlyWaits (w : World) (m : Machine) : Prop where
  world_eq : m.world = w
  idle : m.holder = none
  waits : ∀ id task, m.thread? id ≠ some (.calling task)

theorem OnlyWaits.progress (h : OnlyWaits w m) {id : Nat} {wait : Wait} {queue : List Nat}
    (hthread : m.thread? id = some (.waiting wait)) (progress : Wait.Progress) :
    OnlyWaits w ({ m with queue }.progress id wait progress) where
  world_eq := (world_progress _ _ _ _).trans h.world_eq
  idle := (holder_progress _ _ _ _).trans h.idle
  waits other task hother := by
    by_cases hid : id = other
    · subst hid
      rw [thread?_progress_self (m := { m with queue }) hthread] at hother
      cases progress <;> cases hother
    · rw [thread?_progress_of_ne hid] at hother
      exact h.waits other task hother

theorem OnlyWaits.apply (h : OnlyWaits w m) (hmove : m.apply move = some m')
    (hother : ∀ call, move ≠ .call call) : OnlyWaits w m' := by
  cases step_of_apply hmove with
  | called call => exact absurd rfl (hother call)
  | awaited deadline =>
      refine ⟨h.world_eq, h.idle, fun id task hthread => ?_⟩
      rcases thread?_spawn_eq_some_iff.mp hthread with hold | ⟨-, hnew⟩
      · exact h.waits id task hold
      · cases hnew
  | granted _ _ hthread => exact absurd hthread (h.waits _ _)
  | looked _ _ hthread => exact h.progress hthread _
  | skipped _ _ _ => exact ⟨h.world_eq, h.idle, h.waits⟩
  | answered hholder _ => cases h.idle.symm.trans hholder
  | advanced hthread _ => exact h.progress hthread _
  | @expired first _ hthread _ _ _ =>
      refine ⟨h.world_eq, h.idle, fun id task hcalling => ?_⟩
      by_cases hid : first = id
      · subst hid
        cases (thread?_put_self hthread _).symm.trans hcalling
      · exact h.waits id task ((thread?_put_of_ne _ hid).symm.trans hcalling)
  | ticked _ _ => exact ⟨h.world_eq, h.idle, h.waits⟩

/-- Whatever waits for health do and see, the registry stays as it is and the host is asked for
nothing. -/
theorem world_of_waits (hrun : (start network interval now w).run moves = some m)
    (hother : ∀ move ∈ moves, ∀ call, move ≠ .call call) : m.world = w := by
  have hstart : OnlyWaits w (start network interval now w) :=
    ⟨rfl, rfl, fun id task hthread => by simp [start, thread?] at hthread⟩
  have hwaits : OnlyWaits w m := by
    generalize start network interval now w = s at hrun hstart
    induction moves generalizing s with
    | nil =>
        obtain rfl := Option.some.inj hrun
        exact hstart
    | cons move rest ih =>
        obtain ⟨next, hmove, hrest⟩ := run_cons.mp hrun
        obtain ⟨hfirst, hother⟩ := List.forall_mem_cons.mp hother
        exact ih hother next hrest (hstart.apply hmove hfirst)
  exact hwaits.world_eq

end Machine

end Localnet
