import Localnet.Proofs.Network.Life
import Localnet.Proofs.Network.Rounds

/-!
# The end of a network

A stop shuts every registered node down, once, and leaves nothing registered, whatever the processes
answer. From then on the network is silent: whoever asks for the registry gets it in turn and is told
that the network is stopped, and nothing else happens any more.
-/

namespace Localnet

open World (anything)

/-- A world is another one with all nodes shut down. -/
structure World.ShutDownFrom (w w' : World) : Prop where
  registry : w'.registry = ⟨∅, [], [], w.registry.nextNumber, true⟩
  /-- Every registered node is asked to close its client and to stop its process, once each, and
  nothing else is asked for. -/
  history : ∃ events, w'.history = events ++ w.history ∧
    (∀ e ∈ events, ∃ node ∈ w.registry.nodes.values,
      e.request = .close node.client ∨ e.request = .stop node.process) ∧
    ∀ node ∈ w.registry.nodes.values, timesOf clients.closed node.client events = 1 ∧
      timesOf processes.closed node.process events = 1

/-! ### The stop -/

section

variable {nodes : List Node} {history history' : List Event}

theorem ShutDowns.events (h : ShutDowns nodes history history') :
    ∃ events, history' = events ++ history ∧ ∀ e ∈ events, ∃ node ∈ nodes,
      e.request = .close node.client ∨ e.request = .stop node.process := by
  induction h with
  | nil => exact ⟨[], rfl, fun _ he => absurd he List.not_mem_nil⟩
  | @cons node rest reply _ _ _ ih =>
      obtain ⟨events, rfl, hevents⟩ := ih
      refine ⟨events ++ [⟨.stop node.process, reply⟩, ⟨.close node.client, ()⟩], by simp, ?_⟩
      intro e he
      rcases List.mem_append.mp he with he | he
      · obtain ⟨other, hother, hrequest⟩ := hevents e he
        exact ⟨other, List.mem_cons_of_mem node hother, hrequest⟩
      · refine ⟨node, List.mem_cons_self, ?_⟩
        simp only [List.mem_cons, List.not_mem_nil, or_false] at he
        rcases he with rfl | rfl
        · exact .inr rfl
        · exact .inl rfl

theorem timesOf_append {H : Type} [DecidableEq H] (about : Event → Option H) (x : H)
    (events history : List Event) :
    timesOf about x (events ++ history) = timesOf about x events + timesOf about x history :=
  List.countP_append

/-- A handle that is held before some events and not after them is closed once by them, if they open
nothing. -/
theorem HandleKind.Balanced.timesOf_closed_eq_one {H : Type} [DecidableEq H] {kind : HandleKind H}
    {held : List H} {events : List Event} {x : H} (h : kind.Balanced held history)
    (h' : kind.Balanced [] (events ++ history)) (hx : x ∈ held)
    (hopens : ∀ e ∈ events, kind.opened e = none) : timesOf kind.closed x events = 1 := by
  have hopened : timesOf kind.opened x events = 0 :=
    List.countP_eq_zero.mpr fun e he => by simp [hopens e he]
  rcases h.settled x with ⟨-, hone, hzero⟩ | ⟨hnot, -⟩
  · rcases h'.settled x with ⟨hheld, -⟩ | ⟨-, heq, -⟩
    · cases hheld
    · rw [timesOf_append, timesOf_append] at heq
      omega
  · exact absurd hx hnot

theorem Event.opened_of_shutDown {e : Event} {node : Node}
    (h : e.request = .close node.client ∨ e.request = .stop node.process) :
    clients.opened e = none ∧ processes.opened e = none := by
  obtain ⟨request, reply⟩ := e
  rcases h with h | h
  · cases h
    exact ⟨rfl, rfl⟩
  · cases h
    exact ⟨rfl, rfl⟩

theorem StopEnd.shutDownFrom {roll : List Node} {result : Except NetworkError Unit} {w w' : World}
    (h : w.InOrder roll) (hrunning : w.registry.stopped = false) (hend : StopEnd w result w') :
    result = .ok () ∧ w.ShutDownFrom w' := by
  have hw' := hend.inOrder h
  cases hend with
  | stopped hstopped =>
      rw [hrunning] at hstopped
      cases hstopped
  | @done history' _ hshutDowns =>
      obtain ⟨events, rfl, hevents⟩ := hshutDowns.events
      have hbooks : Books [] (events ++ w.history) := hw'.books
      refine ⟨rfl, rfl, events, rfl, hevents, fun node hnode => ?_⟩
      have hopens : ∀ e ∈ events, clients.opened e = none ∧ processes.opened e = none := by
        intro e he
        obtain ⟨other, -, hrequest⟩ := hevents e he
        exact e.opened_of_shutDown hrequest
      have hroll : node ∈ roll := h.enrolled.values.mem_iff.mpr hnode
      exact ⟨h.books.clients.timesOf_closed_eq_one hbooks.clients (List.mem_map_of_mem hroll)
          fun e he => (hopens e he).1,
        h.books.processes.timesOf_closed_eq_one hbooks.processes (List.mem_map_of_mem hroll)
          fun e he => (hopens e he).2⟩

/-- A network that is running can always be stopped. -/
theorem run_stop_of_running {network : Network} {roll : List Node} {w : World} (h : w.InOrder roll)
    (hrunning : w.registry.stopped = false) (oracle : World.Oracle) :
    ∃ w', World.run oracle (Call.stop.operation network).run w = (.ok .done, w') ∧
      w.ShutDownFrom w' := by
  have hstop : w.Ensures anything (fun result w' => result = .ok .done ∧ w.ShutDownFrom w')
      (Call.stop.operation network).run := by
    rw [Call.operation, World.ensures_run_map]
    refine (Network.ensures_stop w).ends fun result w' hend => ?_
    obtain ⟨rfl, hshutDown⟩ := hend.shutDownFrom h hrunning
    exact ⟨rfl, hshutDown⟩
  obtain ⟨hresult, hworld⟩ := hstop.run oracle
  exact ⟨_, Prod.ext hresult rfl, hworld⟩

end

/-! ### After the stop -/

/-- A thread has not got to see the network, or was told that it is stopped. -/
inductive Thread.Refused : Thread → Prop
  | calling {task : Task (Except NetworkError Answer)} : Refused (.calling task)
  | entering {wait : Wait} : wait.phase = .entering → Refused (.waiting wait)
  | ended : Refused (.ended (.error .stopped))

theorem World.settle_of_silent {α : Type} {Q : α → World → Prop} {task : Task α} {w : World}
    (h : w.Ensures (fun _ _ => False) Q task) : ∃ a w', w.settle task = (.done a, w') ∧ Q a w' := by
  induction task generalizing w with
  | done a => exact ⟨a, w, rfl, h⟩
  | ask request next ih =>
      cases request with
      | registry => exact ih _ h
      | setRegistry r => exact ih _ h
      | host request => exact h.1.elim

theorem keptByCalls_true (network : Network) : KeptByCalls network fun _ => True := fun _ w _ =>
  (World.ensures_history _ w).ends fun _ _ _ => trivial

namespace Machine

variable {network : Network} {s m m' : Machine} {id : Nat} {rest : List Nat} {thread : Thread}
  {move : Move} {moves : List Move} {fates : Client → Fate}

/-- Whether a thread wants the registry, which it does not have. -/
def wants (m : Machine) (id : Nat) : Bool :=
  match m.thread? id with
  | some (.calling _) => m.holder != some id
  | some (.waiting wait) => wait.needsRegistry
  | some (.ended _) | none => false

/-- Every thread that wants the registry stands in the queue for it. -/
def LinedUp (m : Machine) : Prop := ∀ id, m.wants id → id ∈ m.queue

/-- A thread that had not got to see the network at some moment, or was not there yet. -/
def IsOutside (s : Machine) (id : Nat) : Prop := ∀ old, s.thread? id = some old → old.Refused

/-- From `s` to `m` nothing has happened but that callers were told that the network is stopped. -/
structure Silent (s m : Machine) : Prop where
  /-- The registry is the same, and the host was asked for nothing. -/
  world_eq : m.world = s.world
  holder_eq : m.holder = none
  /-- A thread that was outside is told that the network is stopped, and nothing else. -/
  refused : ∀ id thread, s.IsOutside id → m.thread? id = some thread → thread.Refused
  /-- No round of checks begins. -/
  checks : ∀ id wait checks, m.thread? id = some (.waiting wait) → wait.phase = .checking checks →
    ∃ wait', s.thread? id = some (.waiting wait') ∧ wait'.phase = .checking checks

/-- Every thread that was outside at `s` is told that the network is stopped, as soon as the registry
was handed over as often as threads stand in the queue. -/
def TellsAll (s m : Machine) : Prop :=
  ∀ fates, ∃ m', m.run (.replicate m.queue.length (.handOver fates)) = some m' ∧ s.Silent m' ∧
    ∀ id, s.IsOutside id → id < m.threads.length → m'.result? id = some (.error .stopped)

/-! ### Who wants the registry -/

theorem wants_eq_of_thread?_eq (hthread : m'.thread? id = m.thread? id)
    (hholder : m'.holder = some id ↔ m.holder = some id) : m'.wants id = m.wants id := by
  unfold wants
  rw [hthread]
  have hne : (m'.holder != some id) = (m.holder != some id) := by
    rw [Bool.eq_iff_iff, bne_iff_ne, bne_iff_ne, ne_eq, ne_eq, hholder]
  cases m.thread? id with
  | none => rfl
  | some thread => cases thread <;> simp [hne]

theorem exists_thread?_of_wants (h : m.wants id) :
    ∃ thread, m.thread? id = some thread ∧ ∀ result, thread ≠ .ended result := by
  unfold wants at h
  split at h
  next hthread => exact ⟨_, hthread, fun _ => nofun⟩
  next hthread => exact ⟨_, hthread, fun _ => nofun⟩
  next => cases h
  next => cases h

theorem wants_of_ended {result : Except NetworkError Answer}
    (h : m.thread? id = some (.ended result)) : m.wants id = false := by
  rw [wants, h]

theorem wants_of_holder {task : Task (Except NetworkError Answer)}
    (h : m.thread? id = some (.calling task)) (hholder : m.holder = some id) : m.wants id = false := by
  simp [wants, h, hholder]

/-- One thread goes on: the others still stand in the queue. -/
theorem LinedUp.others (h : m.LinedUp) (first : Nat)
    (hwants : ∀ other, other ≠ first → m'.wants other = m.wants other)
    (hqueue : ∀ other, other ≠ first → other ∈ m.queue → other ∈ m'.queue)
    (hfirst : m'.wants first → first ∈ m'.queue) : m'.LinedUp := by
  intro id hid
  by_cases heq : id = first
  · subst heq
    exact hfirst hid
  · exact hqueue id heq (h id (hwants id heq ▸ hid))

theorem LinedUp.spawn (h : m.LinedUp) (new : Thread) : (m.spawn new).LinedUp := by
  intro id hid
  obtain ⟨thread, hthread, -⟩ := exists_thread?_of_wants hid
  rcases thread?_spawn_eq_some_iff.mp hthread with hold | ⟨rfl, -⟩
  · rw [wants_eq_of_thread?_eq (hthread.trans hold.symm) Iff.rfl] at hid
    exact List.mem_append_left _ (h id hid)
  · exact List.mem_append_right _ (List.mem_singleton_self _)

theorem LinedUp.proceed {task : Task (Except NetworkError Answer)} (h : m.LinedUp)
    (hthread : m.thread? id = some thread) (hholder : ∀ other, other ≠ id → m.holder ≠ some other)
    (world : World) (queue : List Nat) (hqueue : ∀ other, other ≠ id → other ∈ m.queue → other ∈ queue) :
    ({ m with world, queue }.proceed id task).LinedUp := by
  have hself := fun new => thread?_put_self (m := { m with world, queue }) hthread new
  refine h.others id (fun other hne => ?_) (fun other hne hmem => ?_) fun hid => ?_
  · exact wants_eq_of_thread?_eq (thread?_proceed_of_ne (Ne.symm hne))
      (iff_of_false (holder_proceed_ne (Ne.symm hne)) (hholder other hne))
  · rw [queue_proceed]
    exact hqueue other hne hmem
  · refine absurd hid (Bool.eq_false_iff.mp ?_)
    rcases hsettle : world.settle task with ⟨result | ⟨request, next⟩, w⟩
    · rw [proceed_of_settle_done hsettle]
      exact wants_of_ended (hself _)
    · rw [proceed_of_settle_ask hsettle]
      exact wants_of_holder (hself _) rfl

theorem LinedUp.progress (h : m.LinedUp) {wait : Wait} (hthread : m.thread? id = some thread)
    (progress : Wait.Progress) (queue : List Nat)
    (hqueue : ∀ other, other ≠ id → other ∈ m.queue → other ∈ queue) :
    ({ m with queue }.progress id wait progress).LinedUp := by
  refine h.others id (fun other hne => ?_) (fun other hne hmem => ?_) fun hid => ?_
  · exact wants_eq_of_thread?_eq (thread?_progress_of_ne (Ne.symm hne) _ _) (by rw [holder_progress])
  · rw [queue_progress]
    exact List.mem_append_left _ (hqueue other hne hmem)
  · rw [wants, thread?_progress_self (m := { m with queue }) hthread] at hid
    rw [queue_progress]
    cases progress with
    | ended result => cases hid
    | phase phase =>
        have hneeds : ({ wait with phase } : Wait).needsRegistry = true := hid
        simp [hneeds]

theorem LinedUp.apply (h : m.LinedUp) (hmove : m.apply move = some m') : m'.LinedUp := by
  have hrest : ∀ {first queue}, m.queue = first :: queue →
      ∀ other, other ≠ first → other ∈ m.queue → other ∈ queue := by
    intro first queue hqueue other hne hmem
    rw [hqueue] at hmem
    exact (List.mem_cons.mp hmem).resolve_left hne
  cases step_of_apply hmove with
  | called call => exact h.spawn _
  | awaited deadline => exact h.spawn _
  | @granted _ queue _ _ hholder hqueue hthread =>
      exact h.proceed hthread (by simp [hholder]) m.world queue (hrest hqueue)
  | @looked _ queue _ _ _ hqueue hthread => exact h.progress hthread _ queue (hrest hqueue)
  | @skipped first queue _ _ hqueue hended =>
      refine h.others first (fun _ _ => rfl) (hrest hqueue) fun hwants => ?_
      obtain ⟨thread, hthread, hnot⟩ := exists_thread?_of_wants hwants
      obtain ⟨result, rfl⟩ := hended thread hthread
      exact absurd rfl (hnot result)
  | answered hholder hthread =>
      exact h.proceed hthread (fun other => holder_ne_of_ne hholder) _ m.queue fun _ _ => id
  | advanced hthread _ => exact h.progress hthread _ m.queue fun _ _ => id
  | @expired first _ hthread _ _ _ =>
      refine h.others first (fun id hne => ?_) (fun id hne hmem => ?_) fun hid => ?_
      · exact wants_eq_of_thread?_eq (thread?_put_of_ne _ (Ne.symm hne)) Iff.rfl
      · exact List.mem_filter.mpr ⟨hmem, by simpa using hne⟩
      · exact absurd hid (Bool.eq_false_iff.mp (wants_of_ended (thread?_put_self hthread _)))
  | ticked _ _ => exact h

theorem linedUp_start (network : Network) (interval now : Nat) (w : World) :
    (start network interval now w).LinedUp := by
  intro id hid
  simp [wants, thread?, start] at hid

/-! ### What a move can be when the network is stopped -/

theorem settle_call_of_stopped (network : Network) (call : Call) {w : World}
    (hstopped : w.registry.stopped) :
    w.settle (call.operation network).run = (.done (.error .stopped), w) := by
  obtain ⟨_, _, hsettle, rfl, rfl⟩ :=
    World.settle_of_silent (ensures_call_of_stopped network call hstopped)
  exact hsettle

/-- The thread that a queue begins with is told that the network is stopped. -/
theorem handOver_of_stopped {I : World → Prop} (hkeeps : m.Keeps network I) (hidle : m.holder = none)
    (hstopped : m.world.registry.stopped) (hqueue : m.queue = id :: rest) (fates : Client → Fate) :
    ∃ m', m.apply (.handOver fates) = some m' ∧ m'.queue = rest ∧ m'.world = m.world ∧
      m'.holder = none := by
  simp only [Machine.apply, Machine.handOver, hidle, hqueue]
  split
  next task hthread =>
    obtain ⟨call, rfl⟩ := hkeeps.fresh id task hthread (by simp [hidle])
    rw [proceed_of_settle_done (m := { m with queue := rest, holder := none })
      (settle_call_of_stopped network call hstopped)]
    exact ⟨_, rfl, rfl, rfl, rfl⟩
  next wait hthread =>
    rw [look_of_stopped hstopped]
    exact ⟨_, rfl, rfl, rfl, rfl⟩
  next => exact ⟨_, rfl, rfl, rfl, rfl⟩
  next => exact ⟨_, rfl, rfl, rfl, rfl⟩

theorem quiet_of_apply {I : World → Prop} (hkeeps : m.Keeps network I) (hidle : m.holder = none)
    (hstopped : m.world.registry.stopped) (hmove : m.apply move = some m') :
    m'.world = m.world ∧ m'.holder = none := by
  cases step_of_apply hmove with
  | called call => exact ⟨rfl, hidle⟩
  | awaited deadline => exact ⟨rfl, hidle⟩
  | @granted id queue _ _ _ _ hthread =>
      obtain ⟨call, rfl⟩ := hkeeps.fresh _ _ hthread (by simp [hidle])
      rw [proceed_of_settle_done (m := { m with queue }) (settle_call_of_stopped network call hstopped)]
      exact ⟨rfl, rfl⟩
  | looked _ _ _ => exact ⟨world_progress _ _ _ _, (holder_progress _ _ _ _).trans hidle⟩
  | skipped _ _ _ => exact ⟨rfl, hidle⟩
  | answered hholder _ => cases hidle.symm.trans hholder
  | advanced _ _ => exact ⟨world_progress _ _ _ _, (holder_progress _ _ _ _).trans hidle⟩
  | expired _ _ _ _ => exact ⟨rfl, hidle⟩
  | ticked _ _ => exact ⟨rfl, hidle⟩

/-- What becomes of a thread by a move: it stays as it is, it is told that the network is stopped, or it
is a wait that goes on by itself. -/
theorem thread?_apply_of_stopped {I : World → Prop} (hkeeps : m.Keeps network I)
    (hidle : m.holder = none) (hstopped : m.world.registry.stopped) (hthread : m.thread? id = some thread)
    (hmove : m.apply move = some m') :
    m'.thread? id = some thread ∨ m'.thread? id = some (.ended (.error .stopped)) ∨
      ∃ wait, thread = .waiting wait ∧ wait.phase ≠ .entering ∧
        ∀ wait' checks, m'.thread? id = some (.waiting wait') → wait'.phase ≠ .checking checks := by
  cases turn_of_apply hthread hmove with
  | rest hrest => exact .inl hrest.thread?_eq
  | tick _ => exact .inl hthread
  | begun _ =>
      obtain ⟨call, rfl⟩ := hkeeps.fresh id _ hthread (by simp [hidle])
      rw [proceed_of_settle_done (m := { m with queue := m.queue.tail })
        (settle_call_of_stopped network call hstopped)]
      exact .inr (.inl (thread?_put_self hthread _))
  | answered hholder =>
      rw [hidle] at hholder
      cases hholder
  | looked _ =>
      rw [look_of_stopped hstopped]
      exact .inr (.inl (thread?_put_self hthread _))
  | @advanced wait progress hadvance =>
      refine .inr (.inr ⟨wait, rfl, ?_, fun wait' checks hwait' => ?_⟩)
      · intro hphase
        simp [Wait.advance?, hphase] at hadvance
      · rw [thread?_progress_self hthread] at hwait'
        cases progress with
        | ended result => cases hwait'
        | phase phase =>
            cases hwait'
            exact fun hphase => Wait.advance?_ne_checking hadvance checks (congrArg _ hphase)
  | @expired wait hoverdue _ =>
      refine .inr (.inr ⟨wait, rfl, ?_, fun wait' checks hwait' => ?_⟩)
      · intro hphase
        simp [Wait.isOverdue, Wait.isTimed, hphase] at hoverdue
      · cases (thread?_put_self hthread _).symm.trans hwait'

/-! ### Runs of a network that is stopped -/

theorem silent_self (hidle : m.holder = none) : m.Silent m :=
  ⟨rfl, hidle, fun _ thread houtside => houtside thread, fun _ wait _ hwait hphase => ⟨wait, hwait, hphase⟩⟩

theorem Silent.apply {I : World → Prop} (h : s.Silent m) (hkeeps : m.Keeps network I)
    (hstopped : s.world.registry.stopped) (hmove : m.apply move = some m') : s.Silent m' := by
  have hstopped' : m.world.registry.stopped := h.world_eq ▸ hstopped
  obtain ⟨hworld, hholder⟩ := quiet_of_apply hkeeps h.holder_eq hstopped' hmove
  refine ⟨hworld.trans h.world_eq, hholder, fun id thread houtside hthread => ?_,
    fun id wait checks hthread hphase => ?_⟩
  · rcases origin_of_apply hmove hthread with ⟨old, hold⟩ | ⟨-, ⟨call, -, rfl⟩ | ⟨deadline, -, rfl⟩⟩
    · have hrefused := h.refused id old houtside hold
      rcases thread?_apply_of_stopped hkeeps h.holder_eq hstopped' hold hmove with
        hsame | htold | ⟨wait, rfl, hphase, -⟩
      · cases hsame.symm.trans hthread
        exact hrefused
      · cases htold.symm.trans hthread
        exact .ended
      · cases hrefused with
        | entering hentering => exact absurd hentering hphase
    · exact .calling
    · exact .entering rfl
  · rcases origin_of_apply hmove hthread with ⟨old, hold⟩ | ⟨-, ⟨call, -, heq⟩ | ⟨deadline, -, heq⟩⟩
    · rcases thread?_apply_of_stopped hkeeps h.holder_eq hstopped' hold hmove with
        hsame | htold | ⟨-, -, -, hnot⟩
      · cases hsame.symm.trans hthread
        exact h.checks id wait checks hold hphase
      · cases htold.symm.trans hthread
      · exact absurd hphase (hnot wait checks hthread)
    · cases heq
    · cases heq
      cases hphase

theorem Silent.run (h : s.Silent m) (hkeeps : m.Keeps network fun _ => True)
    (hstopped : s.world.registry.stopped) (hrun : m.run moves = some m') : s.Silent m' := by
  have hboth : s.Silent m' ∧ m'.Keeps network fun _ => True := by
    refine invariant_run (I := fun m => s.Silent m ∧ m.Keeps network fun _ => True) ?_ ⟨h, hkeeps⟩ hrun
    rintro m move m' ⟨h, hkeeps⟩ hmove
    exact ⟨h.apply hkeeps hstopped hmove, hkeeps.apply (keptByCalls_true network) hmove⟩
  exact hboth.1

/-- The queue gets empty. -/
theorem exists_run_of_stopped (hkeeps : m.Keeps network fun _ => True) (hidle : m.holder = none)
    (hstopped : m.world.registry.stopped) (fates : Client → Fate) :
    ∃ m', m.run (.replicate m.queue.length (.handOver fates)) = some m' ∧ m'.queue = [] := by
  induction hqueue : m.queue generalizing m with
  | nil => exact ⟨m, rfl, hqueue⟩
  | cons id rest ih =>
      obtain ⟨next, hmove, hrest, hworld, hholder⟩ :=
        handOver_of_stopped hkeeps hidle hstopped hqueue fates
      obtain ⟨m', hrun, hempty⟩ :=
        ih (hkeeps.apply (keptByCalls_true network) hmove) hholder (hworld ▸ hstopped) hrest
      exact ⟨m', run_cons.mpr ⟨next, hmove, hrun⟩, hempty⟩

theorem Silent.tellsAll (h : s.Silent m) (hkeeps : m.Keeps network fun _ => True) (hlined : m.LinedUp)
    (hstopped : s.world.registry.stopped) : s.TellsAll m := by
  intro fates
  have hstopped' : m.world.registry.stopped := h.world_eq ▸ hstopped
  obtain ⟨m', hrun, hempty⟩ := exists_run_of_stopped hkeeps h.holder_eq hstopped' fates
  have hsilent := h.run hkeeps hstopped hrun
  refine ⟨m', hrun, hsilent, fun id houtside hlt => ?_⟩
  obtain ⟨thread, hthread⟩ := exists_thread?_run (List.getElem?_eq_getElem hlt) hrun
  -- nobody stands in the queue any more, so nobody wants the registry
  have hnot : ¬ m'.wants id := by
    intro hwants
    have hmem := invariant_run LinedUp.apply hlined hrun id hwants
    rw [hempty] at hmem
    cases hmem
  cases hsilent.refused id thread houtside hthread with
  | calling => simp [wants, hthread, hsilent.holder_eq] at hnot
  | entering hphase => simp [wants, hthread, Wait.needsRegistry, hphase] at hnot
  | ended => exact result?_eq_some_iff.mpr hthread

end Machine

/-- **The end of a network.** A network that is running can always be stopped, whatever the processes
answer: every node is shut down once, and nothing stays registered. From then on, whoever comes, or has
not had the registry yet, is told that the network is stopped, and nothing else happens any more. -/
theorem stop_is_final {network : Network} {w : World} (h : Reached network w)
    (hrunning : w.registry.stopped = false) (oracle : World.Oracle) :
    ∃ w', World.run oracle (Call.stop.operation network).run w = (.ok .done, w') ∧
      w.ShutDownFrom w' ∧
      ∀ (interval now : Nat) (w₀ : World) (before after : List Move) (m m' : Machine),
        (Machine.start network interval now w₀).run before = some m → m.holder = none → m.world = w' →
        m.run after = some m' → m.Silent m' ∧ m.TellsAll m' := by
  obtain ⟨roll, hroll⟩ := h.inOrder
  obtain ⟨w', hstop, hshutDown⟩ := run_stop_of_running hroll hrunning oracle
  refine ⟨w', hstop, hshutDown, fun interval now w₀ before after m m' hbefore hidle hworld hafter => ?_⟩
  have hstopped : m.world.registry.stopped := by
    rw [hworld, hshutDown.registry]
  have hkeeps : m.Keeps network fun _ => True :=
    (Machine.keeps_start network interval now trivial).run (keptByCalls_true network) hbefore
  have hlined : m.LinedUp :=
    Machine.invariant_run Machine.LinedUp.apply (Machine.linedUp_start network interval now w₀) hbefore
  have hsilent := (Machine.silent_self hidle).run hkeeps hstopped hafter
  exact ⟨hsilent, hsilent.tellsAll (hkeeps.run (keptByCalls_true network) hafter)
    (Machine.invariant_run Machine.LinedUp.apply hlined hafter) hstopped⟩

/-- A host whose processes do not stop. -/
def busyHost : World.Oracle := fun history request =>
  match request with
  | .stop _ => .error ⟨"busy", []⟩
  | request => willingHost history request

/-- Calls of all kinds, among them some that would fail in any case, and a wait. -/
def lateCalls : List Move :=
  [.call (.add NodeConfig.empty), .call (.remove "nobody"), .handOver fun _ => ⟨none, .ok false⟩,
    .call (.get "a"), .wait 0, .call .names, .call .all, .call .stop, .handOver fun _ => ⟨none, .ok false⟩]

theorem stop_is_final_of_busyHost :
    ∃ (network : Network) (w w' : World) (m : Machine),
      Reached network w ∧ w.registry.stopped = false ∧
      World.run busyHost (Call.stop.operation network).run w = (.ok .done, w') ∧ w.ShutDownFrom w' ∧
      (Machine.start network 500 0 w').run lateCalls = some m ∧
      (Machine.start network 500 0 w').Silent m ∧ (Machine.start network 500 0 w').TellsAll m := by
  have hends :
      (match World.run willingHost (Network.create soloConfig).run .blank with
        | (.ok network, w) => !w.registry.stopped &&
          ((Machine.start network 500 0 (World.run busyHost (Call.stop.operation network).run w).2).run
            lateCalls).isSome
        | (.error _, _) => false) = true := by
    decide +kernel
  split at hends
  next network w hcreate =>
    obtain ⟨hrunning, hlate⟩ := Bool.and_eq_true _ _ ▸ hends
    have hrunning : w.registry.stopped = false := by simpa using hrunning
    have hstart : (Machine.start network 500 0 w).run [] = some (Machine.start network 500 0 w) := rfl
    have hreached : Reached network w := .mk hcreate hstart rfl
    obtain ⟨w', hstop, hshutDown, hafter⟩ := stop_is_final hreached hrunning busyHost
    rw [hstop] at hlate
    obtain ⟨m, hrun⟩ := Option.isSome_iff_exists.mp hlate
    obtain ⟨hsilent, htellsAll⟩ := hafter 500 0 w' [] lateCalls _ m rfl rfl rfl hrun
    exact ⟨network, w, w', m, hreached, hrunning, hstop, hshutDown, hrun, hsilent, htellsAll⟩
  next => cases hends

end Localnet
