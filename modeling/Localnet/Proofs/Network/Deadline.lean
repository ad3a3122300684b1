import Localnet.Proofs.Network.Life
import Localnet.Proofs.Network.Rounds

/-!
# The deadline of a wait

A wait that has seen the registry once ends at its deadline, whoever has the registry then: no time
passes while it is overdue, and it has moves that end it. Before that the deadline does not count: a wait
that asks for the registry while a node is started may be late by any length of time.
-/

namespace Localnet.Machine

variable {m m' : Machine} {id deadline limit : Nat} {wait : Wait} {move : Move} {moves : List Move}

/-- A wait for which the deadline counts is in time, or it has ended. -/
inductive InTime (id deadline limit : Nat) (m : Machine) : Prop
  | pending {wait : Wait} : m.thread? id = some (.waiting wait) → wait.isTimed →
      wait.deadline = deadline → m.now ≤ limit → InTime id deadline limit m
  | ended {result : Except NetworkError Answer} : m.thread? id = some (.ended result) →
      InTime id deadline limit m

theorem isTimed_iff : wait.isTimed ↔ wait.phase ≠ .entering := by
  unfold Wait.isTimed
  cases wait.phase <;> simp

theorem InTime.progress {progress : Wait.Progress} (hthread : m.thread? id = some (.waiting wait))
    (hphase : progress ≠ .phase .entering) (hdeadline : wait.deadline = deadline)
    (hnow : m.now ≤ limit) : (m.progress id wait progress).InTime id deadline limit := by
  have hself := thread?_progress_self hthread wait progress
  cases progress with
  | ended result => exact .ended hself
  | phase phase =>
      refine .pending hself ?_ hdeadline (by rwa [now_progress])
      exact isTimed_iff.mpr fun heq => hphase (congrArg Wait.Progress.phase heq)

theorem look_ne_entering (htimed : wait.isTimed) (fates : Client → Fate) :
    wait.look m.now fates (targets m.world.registry) ≠ .phase .entering := by
  by_cases hstopped : m.world.registry.stopped
  · rw [look_of_stopped hstopped]
    exact nofun
  · rw [look_of_running wait fates ((Bool.not_eq_true _).mp hstopped)]
    have hphase := isTimed_iff.mp htimed
    cases hphase' : wait.phase with
    | entering => exact absurd hphase' hphase
    | _ => simp

theorem InTime.apply (hlimit : deadline ≤ limit) (h : m.InTime id deadline limit)
    (hmove : m.apply move = some m') : m'.InTime id deadline limit := by
  cases h with
  | pending hthread htimed hdeadline hnow =>
      cases turn_of_apply hthread hmove with
      | rest hrest => exact .pending hrest.thread?_eq htimed hdeadline (hrest.now_eq ▸ hnow)
      | tick hidle =>
          -- time stops at the deadline, so that the wait can end
          have hle := Wait.till_le_deadline hidle htimed
          refine .pending hthread htimed hdeadline ?_
          dsimp only
          omega
      | looked _ => exact .progress hthread (look_ne_entering htimed _) hdeadline hnow
      | advanced hadvance => exact .progress hthread (Wait.advance?_ne_entering hadvance) hdeadline hnow
      | expired _ _ => exact .ended (thread?_put_self hthread _)
  | ended hthread => exact .ended (ended_of_apply hthread hmove).1

theorem InTime.run (hlimit : deadline ≤ limit) (h : m.InTime id deadline limit)
    (hrun : m.run moves = some m') : m'.InTime id deadline limit :=
  invariant_run (fun h hmove => h.apply hlimit hmove) h hrun

/-- **The deadline.** Once a wait has seen that the network is not stopped, it is over when both its
deadline and that moment have passed, whatever the others do with the registry. -/
theorem now_le_of_pending {wait' : Wait} (hthread : m.thread? id = some (.waiting wait))
    (hseen : wait.phase ≠ .entering) (hrun : m.run moves = some m')
    (hpending : m'.thread? id = some (.waiting wait')) : m'.now ≤ max wait.deadline m.now := by
  have hstart : m.InTime id wait.deadline (max wait.deadline m.now) :=
    .pending hthread (isTimed_iff.mpr hseen) rfl (Nat.le_max_right _ _)
  cases hstart.run (Nat.le_max_left _ _) hrun with
  | pending _ _ _ hnow => exact hnow
  | ended hended => cases hended.symm.trans hpending

def firstLook : List Move := [.wait 100, .handOver fun _ => ⟨none, .ok false⟩]

/-- A node is started while the wait is under way. The wait gets the registry no more. -/
def slowStart : List Move :=
  [.call (.add (plainNode "b")), .handOver fun _ => ⟨none, .ok false⟩,
    .handOver fun _ => ⟨none, .ok false⟩, .tick 100]

def isTimedAt (m : Machine) (id : Nat) : Bool :=
  match m.thread? id with
  | some (.waiting wait) => wait.isTimed
  | _ => false

theorem exists_of_isTimedAt (h : m.isTimedAt id) :
    ∃ wait, m.thread? id = some (.waiting wait) ∧ wait.phase ≠ .entering := by
  unfold isTimedAt at h
  split at h
  next wait hthread => exact ⟨wait, hthread, isTimed_iff.mp h⟩
  next => cases h

theorem now_le_of_slowStart : ∃ (network : Network) (w : World) (m m' : Machine) (wait wait' : Wait),
    World.run willingHost (Network.create soloConfig).run .blank = (.ok network, w) ∧
    (start network 500 0 w).run firstLook = some m ∧ m.thread? 0 = some (.waiting wait) ∧
    wait.phase ≠ .entering ∧ m.run slowStart = some m' ∧ m'.thread? 0 = some (.waiting wait') ∧
    m'.now ≤ max wait.deadline m.now := by
  have hpending :
      (match World.run willingHost (Network.create soloConfig).run .blank with
        | (.ok network, w) =>
          ((start network 500 0 w).run firstLook).any fun m =>
            m.isTimedAt 0 && (m.run slowStart).any (·.isTimedAt 0)
        | (.error _, _) => false) = true := by
    decide +kernel
  split at hpending
  next network w hcreate =>
    obtain ⟨m, hfirst, hm⟩ := (Option.any_eq_true _ _).mp hpending
    rw [Bool.and_eq_true] at hm
    obtain ⟨m', hslow, hm'⟩ := (Option.any_eq_true _ _).mp hm.2
    obtain ⟨wait, hthread, hseen⟩ := exists_of_isTimedAt hm.1
    obtain ⟨wait', hthread', -⟩ := exists_of_isTimedAt hm'
    exact ⟨network, w, m, m', wait, wait', hcreate, hfirst, hthread, hseen, hslow, hthread',
      now_le_of_pending hthread hseen hslow hthread'⟩
  next => cases hpending

def isHeldUp (m : Machine) : Bool :=
  m.holder.isSome && m.now == 0 &&
    match m.threads with
    | [.calling _, .waiting ⟨100, _, .entering⟩] => true
    | _ => false

theorem tick_of_isHeldUp (h : m.isHeldUp) (late : Nat) : ∃ m' wait, m.tick late = some m' ∧
    m'.now = late ∧ m'.thread? 1 = some (.waiting wait) ∧ wait.deadline = 100 := by
  unfold isHeldUp at h
  simp only [Bool.and_eq_true, beq_iff_eq] at h
  obtain ⟨⟨hholder, hnow⟩, hthreads⟩ := h
  split at hthreads
  next task interval hthreads' =>
    have hidle : m.threads.all (Thread.isIdleTill m.now (m.now + late)) := by
      simp [hthreads', Thread.isIdleTill, Wait.isOverdue, Wait.isTimed, Wait.advance?, Wait.timers]
    have hheld : m.holder.isNone → m.queue = [] := by
      intro hnone
      simp [Option.isNone_iff_eq_none.mp hnone] at hholder
    refine ⟨{ m with now := m.now + late }, ⟨100, interval, .entering⟩, ?_, ?_, ?_, rfl⟩
    · exact if_pos ⟨hheld, hidle⟩
    · simp [hnow]
    · simp [thread?, hthreads']
  next => cases hthreads

def isStarting (m : Machine) (id : Nat) : Bool :=
  match m.request? id with
  | some (.start _) => true
  | _ => false

/-- A node is being started, and does not get on, when a wait is begun. -/
def startBeforeWait : List Move :=
  [.call (.add (plainNode "b")), .handOver fun _ => ⟨none, .ok false⟩, .reply (willing 9700),
    .reply (willing 9700)] ++
  List.replicate 8 (.reply (willing 9701)) ++ [.wait 100]

/-- A wait that has not seen the registry yet may be late by any length of time. -/
theorem late_of_startBeforeWait : ∃ (network : Network) (w : World),
    World.run willingHost (Network.create soloConfig).run .blank = (.ok network, w) ∧
    ∀ late, ∃ m wait, (start network 500 0 w).run (startBeforeWait ++ [.tick late]) = some m ∧
      m.now = late ∧ m.thread? 1 = some (.waiting wait) ∧ wait.deadline = 100 := by
  have hheldUp :
      (match World.run willingHost (Network.create soloConfig).run .blank with
        | (.ok network, w) =>
          ((start network 500 0 w).run startBeforeWait).any fun m => m.isHeldUp && m.isStarting 0
        | (.error _, _) => false) = true := by
    decide +kernel
  split at hheldUp
  next network w hcreate =>
    refine ⟨network, w, hcreate, fun late => ?_⟩
    obtain ⟨m, hrun, hm⟩ := (Option.any_eq_true _ _).mp hheldUp
    obtain ⟨m', wait, htick, hpending⟩ := tick_of_isHeldUp (Bool.and_eq_true _ _ ▸ hm).1 late
    refine ⟨m', wait, run_append.mpr ⟨m, hrun, run_cons.mpr ⟨m', htick, rfl⟩⟩, hpending⟩
  next => cases hheldUp

/-! ### Overdue waits -/

/-- A wait is in line for the registry once if it needs it, and else not at all. -/
structure InLine (m : Machine) : Prop where
  enlisted : m.Enlisted
  count_queue_le : ∀ id wait, m.thread? id = some (.waiting wait) →
    m.queue.count id ≤ if wait.needsRegistry then 1 else 0

theorem inLine_start (network : Network) (interval now : Nat) (w : World) :
    (start network interval now w).InLine :=
  ⟨enlisted_start network interval now w, nofun⟩

theorem count_queue_of_progress {old : Thread} {wait' : Wait} {progress : Wait.Progress}
    (hthread : m.thread? id = some old)
    (hwaiting : (m.progress id wait progress).thread? id = some (.waiting wait')) :
    (m.progress id wait progress).queue.count id =
      m.queue.count id + if wait'.needsRegistry then 1 else 0 := by
  rw [thread?_progress_self hthread] at hwaiting
  cases progress with
  | ended result => cases hwaiting
  | phase phase =>
      cases hwaiting
      exact count_queue_progress_self m id wait phase

theorem InLine.apply (h : m.InLine) (hmove : m.apply move = some m') : m'.InLine := by
  refine ⟨h.enlisted.apply hmove, fun id wait' hthread' => ?_⟩
  rcases origin_of_apply hmove hthread' with
    ⟨old, hthread⟩ | ⟨rfl, ⟨call, -, heq⟩ | ⟨deadline, rfl, heq⟩⟩
  · cases turn_of_apply hthread hmove with
    | rest hrest =>
        cases hrest.thread?_eq.symm.trans hthread'
        exact hrest.count_queue_le.trans (h.count_queue_le id wait' hthread)
    | tick _ => exact h.count_queue_le id wait' hthread'
    | begun _ => exact absurd hthread' (thread?_proceed_ne_waiting hthread)
    | answered _ => exact absurd hthread' (thread?_proceed_ne_waiting hthread)
    | @looked wait fates hnext =>
        -- it was in line once, and that was its turn
        have hcount := h.count_queue_le id wait hthread
        have hnow := count_queue_of_isNext hnext
        have hfirst : m.queue.tail.count id = 0 := by
          split at hcount <;> omega
        rw [count_queue_of_progress (m := { m with queue := m.queue.tail }) hthread hthread', hfirst,
          Nat.zero_add]
    | @advanced wait progress hadvance =>
        have hcount := h.count_queue_le id wait hthread
        rw [Wait.needsRegistry_of_advance? hadvance] at hcount
        rw [count_queue_of_progress hthread hthread', Nat.le_zero.mp hcount, Nat.zero_add]
    | expired _ _ => cases (thread?_put_self hthread _).symm.trans hthread'
  · cases heq
  · cases heq
    cases hmove
    have hnew : m.threads.length ∉ m.queue := fun hmem => Nat.lt_irrefl _ (h.enlisted _ hmem)
    rw [spawn, List.count_append, List.count_eq_zero_of_not_mem hnew]
    simp [Wait.start, Wait.needsRegistry]

theorem InLine.not_isNext (h : m.InLine) (hthread : m.thread? id = some (.waiting wait))
    (hneeds : wait.needsRegistry = false) : ¬ m.isNext id := by
  intro hnext
  have hcount := h.count_queue_le id wait hthread
  rw [count_queue_of_isNext hnext, hneeds] at hcount
  exact Nat.not_succ_le_zero _ hcount

variable {fates : Client → Fate}

/-- The moves that let one wait go on, when the checks that it begins have some fates. -/
def Attempts (id : Nat) (fates : Client → Fate) (move : Move) : Prop :=
  move = .advance id ∨ move = .expire id ∨ move = .handOver fates

/-- A thread can end before any time passes. -/
def EndsNow (id : Nat) (fates : Client → Fate) (m : Machine) : Prop :=
  ∃ moves m' result, (∀ move ∈ moves, Attempts id fates move) ∧ m.run moves = some m' ∧
    m'.now = m.now ∧ m'.result? id = some result

theorem endsNow_of_result? {result : Except NetworkError Answer} (h : m.result? id = some result) :
    m.EndsNow id fates :=
  ⟨[], m, result, List.forall_mem_nil _, rfl, rfl, h⟩

theorem EndsNow.of_apply (hattempt : Attempts id fates move) (hmove : m.apply move = some m')
    (hnow : m'.now = m.now) (h : m'.EndsNow id fates) : m.EndsNow id fates := by
  obtain ⟨moves, last, result, hattempts, hrun, hlast, hresult⟩ := h
  exact ⟨move :: moves, last, result, List.forall_mem_cons.mpr ⟨hattempt, hattempts⟩,
    run_cons.mpr ⟨m', hmove, hrun⟩, hlast.trans hnow, hresult⟩

theorem apply_advance {progress : Wait.Progress} (hthread : m.thread? id = some (.waiting wait))
    (hadvance : wait.advance? m.now = some progress) :
    m.apply (.advance id) = some (m.progress id wait progress) := by
  simp only [Machine.apply, Machine.advance, hthread, hadvance, Option.map_some]

/-- A look at the registry ends a wait, or it begins a round. -/
theorem look_of_surveying (hphase : wait.phase = .surveying) (fates : Client → Fate) :
    wait.look m.now fates (targets m.world.registry) = .ended (.error .stopped) ∨
      ∃ checks, wait.look m.now fates (targets m.world.registry) = .phase (.checking checks) := by
  by_cases hstopped : m.world.registry.stopped
  · exact .inl (look_of_stopped hstopped)
  · have hseen := look_of_running wait fates ((Bool.not_eq_true _).mp hstopped)
    rw [hphase] at hseen
    exact .inr ⟨_, hseen⟩

section

variable (hline : m.InLine) (hthread : m.thread? id = some (.waiting wait))
  (hlate : wait.deadline ≤ m.now)

include hthread hlate

theorem endsNow_of_stuck (htimed : wait.isTimed) (hstuck : wait.advance? m.now = none)
    (hnext : ¬ m.isNext id) : m.EndsNow id fates := by
  have hoverdue : wait.isOverdue m.now := by
    rw [Wait.isOverdue, htimed, Bool.true_and, decide_eq_true_eq]
    exact hlate
  have hmove : m.apply (.expire id) =
      some { m.put id (.ended (.error .healthTimeout)) with queue := m.queue.filter (· ≠ id) } := by
    simp only [Machine.apply, Machine.expire, hthread]
    rw [if_pos ⟨hoverdue, Option.isNone_iff_eq_none.mpr hstuck, hnext⟩]
  exact .of_apply (.inr (.inl rfl)) hmove rfl
    (endsNow_of_result? (result?_eq_some_iff.mpr (thread?_put_self hthread _)))

include hline

theorem endsNow_of_pausing {till : Nat} (hphase : wait.phase = .pausing till) (hlong : m.now < till) :
    m.EndsNow id fates := by
  refine endsNow_of_stuck hthread hlate (isTimed_iff.mpr (by simp [hphase])) ?_
    (hline.not_isNext hthread (by simp [Wait.needsRegistry, hphase]))
  exact (Wait.advance?_pausing_eq_none_iff hphase).mpr hlong

/-- A round that is over ends the wait, or the deadline ends the pause after it. -/
theorem endsNow_of_checking (hinterval : 0 < wait.interval) {checks : List Check}
    (hphase : wait.phase = .checking checks) : m.EndsNow id fates := by
  cases hadvance : wait.advance? m.now with
  | none =>
      exact endsNow_of_stuck hthread hlate (isTimed_iff.mpr (by simp [hphase])) hadvance
        (hline.not_isNext hthread (by simp [Wait.needsRegistry, hphase]))
  | some progress =>
      have hmove := apply_advance hthread hadvance
      have hself := thread?_progress_self hthread wait progress
      refine .of_apply (.inl rfl) hmove (now_progress m id wait progress) ?_
      simp only [Wait.advance?, hphase] at hadvance
      split at hadvance
      next =>
        split at hadvance
        next =>
          cases hadvance
          exact endsNow_of_result? (result?_eq_some_iff.mpr hself)
        next =>
          cases hadvance
          refine endsNow_of_pausing (hline.apply hmove) hself ?_ rfl ?_
          · rw [now_progress]
            exact hlate
          · rw [now_progress]
            exact Nat.lt_add_of_pos_right hinterval
      next => cases hadvance

theorem endsNow_of_surveying (hinterval : 0 < wait.interval) (hphase : wait.phase = .surveying) :
    m.EndsNow id fates := by
  by_cases hnext : m.isNext id
  · obtain ⟨hidle, hhead⟩ := isNext_iff.mp hnext
    obtain ⟨queue, hqueue⟩ := List.head?_eq_some_iff.mp hhead
    have hmove : m.apply (.handOver fates) = some ({ m with queue }.progress id wait
        (wait.look m.now fates (targets m.world.registry))) := by
      simp only [thread?] at hthread
      simp only [Machine.apply, Machine.handOver, hidle, hqueue, thread?, hthread]
    have hseen := look_of_surveying (m := m) hphase fates
    generalize wait.look m.now fates (targets m.world.registry) = seen at hmove hseen
    have hself := thread?_progress_self (m := { m with queue }) hthread wait seen
    refine .of_apply (.inr (.inr rfl)) hmove (now_progress _ id wait seen) ?_
    rcases hseen with rfl | ⟨checks, rfl⟩
    · exact endsNow_of_result? (result?_eq_some_iff.mpr hself)
    · refine endsNow_of_checking (hline.apply hmove) hself ?_ hinterval rfl
      rw [now_progress]
      exact hlate
  · exact endsNow_of_stuck hthread hlate (isTimed_iff.mpr (by simp [hphase]))
      (by simp [Wait.advance?, hphase]) hnext

end

/-- **The end.** An overdue wait of a network has moves that end it before any more time passes, however
the checks go that it may still begin. -/
theorem endsNow_of_isOverdue {network : Network} {interval now : Nat} {w : World}
    (hrun : (start network interval now w).run moves = some m)
    (hthread : m.thread? id = some (.waiting wait)) (hoverdue : wait.isOverdue m.now)
    (hinterval : 0 < wait.interval) (fates : Client → Fate) : m.EndsNow id fates := by
  have hline := invariant_run InLine.apply (inLine_start network interval now w) hrun
  obtain ⟨htimed, hlate⟩ : wait.isTimed ∧ wait.deadline ≤ m.now := by
    simpa [Wait.isOverdue] using hoverdue
  cases hphase : wait.phase with
  | entering => exact absurd hphase (isTimed_iff.mp htimed)
  | surveying => exact endsNow_of_surveying hline hthread hlate hinterval hphase
  | checking checks => exact endsNow_of_checking hline hthread hlate hinterval hphase
  | pausing till =>
      by_cases hlong : m.now < till
      · exact endsNow_of_pausing hline hthread hlate hphase hlong
      · -- the pause is over: another round would begin, but the deadline comes first
        have hadvance : wait.advance? m.now = some (.phase .surveying) := by
          simp only [Wait.advance?, hphase, if_pos (Nat.le_of_not_lt hlong)]
        have hmove := apply_advance hthread hadvance
        refine .of_apply (.inl rfl) hmove (now_progress m id wait _) ?_
        refine endsNow_of_surveying (hline.apply hmove) (thread?_progress_self hthread wait _) ?_
          hinterval rfl
        rw [now_progress]
        exact hlate

end Localnet.Machine
