import Localnet.Network.Machine

/-!
# What a move means

Each move lets one thread go on, or time pass; every other thread stays as it is. `Step` says once what
a move can be, and `Turn` what it can be for a given thread. What is proved of a network or of a thread
goes through them.
-/

namespace Localnet.Machine

variable {m m' : Machine} {id other : Nat} {thread : Thread} {move : Move}

theorem thread?_put_of_ne (thread : Thread) (hne : id ≠ other) :
    (m.put id thread).thread? other = m.thread? other :=
  List.getElem?_set_ne hne

theorem thread?_put_self {old : Thread} (hthread : m.thread? id = some old) (thread : Thread) :
    (m.put id thread).thread? id = some thread := by
  obtain ⟨hlt, -⟩ := List.getElem?_eq_some_iff.mp hthread
  exact List.getElem?_set_self hlt

theorem thread?_spawn_eq_some_iff {new : Thread} : (m.spawn new).thread? id = some thread ↔
    m.thread? id = some thread ∨ id = m.threads.length ∧ new = thread := by
  unfold thread? Machine.spawn
  rcases Nat.lt_trichotomy id m.threads.length with hlt | rfl | hgt
  · rw [List.getElem?_append_left hlt]
    exact (or_iff_left fun h => absurd h.1 (Nat.ne_of_lt hlt)).symm
  · simp
  · rw [List.getElem?_eq_none (by simp; omega), List.getElem?_eq_none (Nat.le_of_lt hgt)]
    simp [Nat.ne_of_gt hgt]

theorem thread?_spawn (h : m.thread? id = some thread) (new : Thread) :
    (m.spawn new).thread? id = some thread :=
  thread?_spawn_eq_some_iff.mpr (.inl h)

theorem thread?_spawn_self (new : Thread) : (m.spawn new).thread? m.threads.length = some new :=
  thread?_spawn_eq_some_iff.mpr (.inr ⟨rfl, rfl⟩)

theorem count_queue_spawn (h : m.thread? id = some thread) (new : Thread) :
    (m.spawn new).queue.count id ≤ m.queue.count id := by
  obtain ⟨hlt, -⟩ := List.getElem?_eq_some_iff.mp h
  have hne : m.threads.length ≠ id := by omega
  rw [spawn, List.count_append, List.count_singleton, if_neg (by simpa using hne)]
  omega

section

variable (m id) (wait : Wait) (progress : Wait.Progress)

@[simp] theorem now_progress : (m.progress id wait progress).now = m.now := by
  cases progress with
  | ended result => rfl
  | phase phase =>
      dsimp only [Machine.progress]
      split <;> rfl

@[simp] theorem world_progress : (m.progress id wait progress).world = m.world := by
  cases progress with
  | ended result => rfl
  | phase phase =>
      dsimp only [Machine.progress]
      split <;> rfl

@[simp] theorem holder_progress : (m.progress id wait progress).holder = m.holder := by
  cases progress with
  | ended result => rfl
  | phase phase =>
      dsimp only [Machine.progress]
      split <;> rfl

theorem threads_progress :
    (m.progress id wait progress).threads = m.threads.set id (
      match progress with
      | .ended result => .ended (result.map fun () => .done)
      | .phase phase => .waiting { wait with phase }) := by
  cases progress with
  | ended result => rfl
  | phase phase =>
      dsimp only [Machine.progress]
      split <;> rfl

@[simp] theorem length_threads_progress :
    (m.progress id wait progress).threads.length = m.threads.length := by
  rw [threads_progress, List.length_set]

end

theorem thread?_progress_of_ne (hne : id ≠ other) (wait : Wait) (progress : Wait.Progress) :
    (m.progress id wait progress).thread? other = m.thread? other := by
  rw [thread?, threads_progress]
  exact List.getElem?_set_ne hne

theorem queue_progress (m : Machine) (id : Nat) (wait : Wait) (progress : Wait.Progress) :
    (m.progress id wait progress).queue = m.queue ++
      match progress with
      | .ended _ => []
      | .phase phase => if { wait with phase }.needsRegistry then [id] else [] := by
  cases progress with
  | ended result => exact (List.append_nil _).symm
  | phase phase =>
      dsimp only [Machine.progress]
      split
      · rfl
      · exact (List.append_nil _).symm

theorem count_queue_progress (hne : id ≠ other) (wait : Wait) (progress : Wait.Progress) :
    (m.progress id wait progress).queue.count other ≤ m.queue.count other := by
  rw [queue_progress, List.count_append]
  cases progress with
  | ended result => simp
  | phase phase =>
      dsimp only
      split
      next => simp [hne]
      next => simp

theorem count_queue_progress_self (m : Machine) (id : Nat) (wait : Wait) (phase : Wait.Phase) :
    (m.progress id wait (.phase phase)).queue.count id =
      m.queue.count id + if { wait with phase }.needsRegistry then 1 else 0 := by
  rw [queue_progress, List.count_append]
  dsimp only
  split <;> simp

theorem thread?_progress_self {old : Thread} (hthread : m.thread? id = some old) (wait : Wait)
    (progress : Wait.Progress) : (m.progress id wait progress).thread? id = some (
      match progress with
      | .ended result => .ended (result.map fun () => .done)
      | .phase phase => .waiting { wait with phase }) := by
  rw [thread?, threads_progress]
  obtain ⟨hlt, -⟩ := List.getElem?_eq_some_iff.mp hthread
  exact List.getElem?_set_self hlt

section

variable {task : Task (Except NetworkError Answer)}

theorem queue_proceed : (m.proceed id task).queue = m.queue := by
  unfold Machine.proceed
  split <;> rfl

theorem now_proceed : (m.proceed id task).now = m.now := by
  unfold Machine.proceed
  split <;> rfl

theorem thread?_proceed_of_ne (hne : id ≠ other) :
    (m.proceed id task).thread? other = m.thread? other := by
  unfold Machine.proceed
  split <;> exact thread?_put_of_ne _ hne

theorem exists_thread?_proceed (hthread : m.thread? id = some thread) :
    ∃ thread', (m.proceed id task).thread? id = some thread' := by
  unfold Machine.proceed
  split <;> exact ⟨_, thread?_put_self hthread _⟩

/-- A call is not a wait, however far it gets. -/
theorem thread?_proceed_ne_waiting {wait : Wait} (hthread : m.thread? id = some thread) :
    (m.proceed id task).thread? id ≠ some (.waiting wait) := by
  unfold Machine.proceed
  split <;> exact fun h => nomatch (thread?_put_self hthread _).symm.trans h

theorem proceed_of_settle_done {result : Except NetworkError Answer} {w : World}
    (hsettle : m.world.settle task = (.done result, w)) :
    m.proceed id task = { m.put id (.ended result) with world := w, holder := none } := by
  unfold Machine.proceed
  rw [hsettle]

theorem proceed_of_settle_ask {request : Request}
    {next : request.Reply → Task (Except NetworkError Answer)} {w : World}
    (hsettle : m.world.settle task = (Program.ask request next, w)) :
    m.proceed id task =
      { m.put id (.calling (Program.ask request next)) with world := w, holder := some id } := by
  unfold Machine.proceed
  rw [hsettle]

theorem holder_proceed_ne (hne : id ≠ other) : (m.proceed id task).holder ≠ some other := by
  unfold Machine.proceed
  split
  · exact nofun
  · exact fun h => hne (Option.some.inj h)

end

/-! ### One thread at a time -/

/-- Only one thread has the registry. -/
theorem holder_ne_of_ne (hholder : m.holder = some id) (hne : other ≠ id) : m.holder ≠ some other :=
  fun heq => hne (Option.some.inj (heq.symm.trans hholder))

/-- All threads but one are as they were. -/
structure SameBut (id : Nat) (m m' : Machine) : Prop where
  network_eq : m'.network = m.network
  length_eq : m'.threads.length = m.threads.length
  thread?_eq : ∀ other, other ≠ id → m'.thread? other = m.thread? other

theorem SameBut.thread?_of_ne {old : Thread} (h : SameBut id m m') (hid : m.thread? id = some old)
    (hother : m.thread? other = some thread) (hne : thread ≠ old) : m'.thread? other = some thread := by
  refine (h.thread?_eq other ?_).trans hother
  rintro rfl
  exact hne (Option.some.inj (hother.symm.trans hid))

theorem sameBut_put (thread : Thread) (world : World) (holder : Option Nat) (queue : List Nat) :
    SameBut id m { m.put id thread with world, holder, queue } where
  network_eq := rfl
  length_eq := List.length_set
  thread?_eq _ hne := thread?_put_of_ne thread (Ne.symm hne)

theorem sameBut_progress (wait : Wait) (progress : Wait.Progress) :
    SameBut id m (m.progress id wait progress) where
  network_eq := by
    cases progress with
    | ended result => rfl
    | phase phase =>
        dsimp only [Machine.progress]
        split <;> rfl
  length_eq := length_threads_progress m id wait progress
  thread?_eq _ hne := thread?_progress_of_ne (Ne.symm hne) wait progress

/-! ### What a move can be -/

/-- All that a move can be: when it is possible, and what it makes of a network. -/
inductive Step (m : Machine) : Move → Machine → Prop
  | called (call : Call) : Step m (.call call) (m.spawn (.calling (call.operation m.network).run))
  | awaited (deadline : Nat) :
      Step m (.wait deadline) (m.spawn (.waiting (.start deadline m.interval)))
  | granted {id : Nat} {queue : List Nat} {task : Task (Except NetworkError Answer)}
      {fates : Client → Fate} : m.holder = none → m.queue = id :: queue →
      m.thread? id = some (.calling task) → Step m (.handOver fates) ({ m with queue }.proceed id task)
  | looked {id : Nat} {queue : List Nat} {wait : Wait} {fates : Client → Fate} : m.holder = none →
      m.queue = id :: queue → m.thread? id = some (.waiting wait) →
      Step m (.handOver fates) ({ m with queue }.progress id wait
        (wait.look m.now fates (targets m.world.registry)))
  /-- A thread that has ended, or was never there, wants nothing. -/
  | skipped {id : Nat} {queue : List Nat} {fates : Client → Fate} : m.holder = none →
      m.queue = id :: queue → (∀ thread, m.thread? id = some thread → ∃ result, thread = .ended result) →
      Step m (.handOver fates) { m with queue }
  | answered {id : Nat} {request : HostRequest}
      {next : request.Reply → Task (Except NetworkError Answer)}
      {answer : (request : HostRequest) → request.Answer} : m.holder = some id →
      m.thread? id = some (.calling (Program.ask (Request.host request) next)) →
      Step m (.reply answer)
        ({ m with world := m.world.record request (m.world.grant request (answer request)) }.proceed id
          (next (m.world.grant request (answer request))))
  | advanced {id : Nat} {wait : Wait} {progress : Wait.Progress} : m.thread? id = some (.waiting wait) →
      wait.advance? m.now = some progress → Step m (.advance id) (m.progress id wait progress)
  | expired {id : Nat} {wait : Wait} : m.thread? id = some (.waiting wait) → wait.isOverdue m.now →
      wait.advance? m.now = none → ¬ m.isNext id →
      Step m (.expire id)
        { m.put id (.ended (.error .healthTimeout)) with queue := m.queue.filter (· ≠ id) }
  | ticked {duration : Nat} : (m.holder = none → m.queue = []) →
      m.threads.all (Thread.isIdleTill m.now (m.now + duration)) →
      Step m (.tick duration) { m with now := m.now + duration }

theorem step_of_handOver {fates : Client → Fate} (hmove : m.handOver fates = some m') :
    m.Step (.handOver fates) m' := by
  unfold Machine.handOver at hmove
  split at hmove
  next first queue hholder hqueue =>
    dsimp only at hmove
    split at hmove <;> cases hmove
    next hthread => exact .granted hholder hqueue hthread
    next hthread => exact .looked hholder hqueue hthread
    next result hthread =>
      exact .skipped hholder hqueue fun thread h => ⟨result, Option.some.inj (h.symm.trans hthread)⟩
    next hthread => exact .skipped hholder hqueue fun thread h => nomatch h.symm.trans hthread
  next => cases hmove

theorem step_of_apply (hmove : m.apply move = some m') : m.Step move m' := by
  cases move with
  | call call =>
      cases hmove
      exact .called call
  | wait deadline =>
      cases hmove
      exact .awaited deadline
  | handOver fates => exact step_of_handOver hmove
  | reply answer =>
      simp only [apply, Machine.reply] at hmove
      obtain ⟨id, hholder, hmove⟩ := Option.bind_eq_some_iff.mp hmove
      split at hmove
      next hthread =>
        cases hmove
        exact .answered hholder hthread
      next => cases hmove
  | advance id =>
      simp only [apply, Machine.advance] at hmove
      split at hmove
      next wait hthread =>
        obtain ⟨progress, hadvance, rfl⟩ := Option.map_eq_some_iff.mp hmove
        exact .advanced hthread hadvance
      next => cases hmove
  | expire id =>
      simp only [apply, Machine.expire] at hmove
      split at hmove
      next wait hthread =>
        split at hmove
        next hlate =>
          cases hmove
          exact .expired hthread hlate.1 (Option.isNone_iff_eq_none.mp hlate.2.1) hlate.2.2
        next => cases hmove
      next => cases hmove
  | tick duration =>
      simp only [apply, Machine.tick] at hmove
      split at hmove
      next hidle =>
        cases hmove
        exact .ticked (fun hholder => hidle.1 (Option.isNone_iff_eq_none.mpr hholder)) hidle.2
      next => cases hmove

/-! ### What a move is for one thread -/

/-- It is not the turn of a thread. -/
structure Rests (m : Machine) (id : Nat) (thread : Thread) (move : Move) (m' : Machine) : Prop where
  thread?_eq : m'.thread? id = some thread
  now_eq : m'.now = m.now
  world_eq : m.holder = some id → m'.world = m.world
  holder_iff : m'.holder = some id ↔ m.holder = some id
  count_queue_le : m'.queue.count id ≤ m.queue.count id
  ended_of_isNext : ∀ fates, move = .handOver fates → m.isNext id → ∃ result, thread = .ended result

/-- What a move can be for a thread. -/
inductive Turn (m : Machine) (id : Nat) : Thread → Move → Machine → Prop
  | rest {thread : Thread} {move : Move} {m' : Machine} : m.Rests id thread move m' →
      Turn m id thread move m'
  | tick {thread : Thread} {duration : Nat} : thread.isIdleTill m.now (m.now + duration) →
      Turn m id thread (.tick duration) { m with now := m.now + duration }
  | begun {task : Task (Except NetworkError Answer)} {fates : Client → Fate} : m.isNext id →
      Turn m id (.calling task) (.handOver fates) ({ m with queue := m.queue.tail }.proceed id task)
  | answered {request : HostRequest} {next : request.Reply → Task (Except NetworkError Answer)}
      {answer : (request : HostRequest) → request.Answer} : m.holder = some id →
      Turn m id (.calling (Program.ask (Request.host request) next)) (.reply answer)
        ({ m with world := m.world.record request (m.world.grant request (answer request)) }.proceed id
          (next (m.world.grant request (answer request))))
  | looked {wait : Wait} {fates : Client → Fate} : m.isNext id →
      Turn m id (.waiting wait) (.handOver fates) ({ m with queue := m.queue.tail }.progress id wait
        (wait.look m.now fates (targets m.world.registry)))
  | advanced {wait : Wait} {progress : Wait.Progress} : wait.advance? m.now = some progress →
      Turn m id (.waiting wait) (.advance id) (m.progress id wait progress)
  | expired {wait : Wait} : wait.isOverdue m.now → wait.advance? m.now = none →
      Turn m id (.waiting wait) (.expire id)
        { m.put id (.ended (.error .healthTimeout)) with queue := m.queue.filter (· ≠ id) }

theorem isNext_iff : m.isNext id ↔ m.holder = none ∧ m.queue.head? = some id := by
  simp [isNext]

theorem count_queue_of_isNext (h : m.isNext id) : m.queue.count id = m.queue.tail.count id + 1 := by
  obtain ⟨-, hhead⟩ := isNext_iff.mp h
  obtain ⟨rest, hqueue⟩ := List.head?_eq_some_iff.mp hhead
  rw [hqueue, List.count_cons_self, List.tail_cons]

theorem not_isNext_of_ne {first : Nat} {queue : List Nat} (hqueue : m.queue = first :: queue)
    (hne : first ≠ id) : ¬ m.isNext id := by
  rw [isNext_iff, hqueue, List.head?_cons, Option.some.injEq]
  exact fun h => hne h.2

theorem Rests.spawn (hthread : m.thread? id = some thread) (new : Thread)
    (hmove : ∀ fates, move ≠ .handOver fates) : m.Rests id thread move (m.spawn new) where
  thread?_eq := thread?_spawn hthread new
  now_eq := rfl
  world_eq _ := rfl
  holder_iff := Iff.rfl
  count_queue_le := count_queue_spawn hthread new
  ended_of_isNext fates heq := absurd heq (hmove fates)

theorem turn_of_handOver {fates : Client → Fate} (hthread : m.thread? id = some thread)
    (h : m.Step (.handOver fates) m') : m.Turn id thread (.handOver fates) m' := by
  have htail : ∀ {first queue}, m.queue = first :: queue →
      queue = m.queue.tail ∧ queue.count id ≤ m.queue.count id := by
    rintro first queue hqueue
    rw [hqueue]
    exact ⟨rfl, (List.sublist_cons_self first queue).count_le id⟩
  have hnotNext : ∀ {first queue fates'}, m.queue = first :: queue → first ≠ id →
      Move.handOver fates = .handOver fates' → m.isNext id → ∃ result, thread = .ended result :=
    fun hqueue hne _ hnext => absurd hnext (not_isNext_of_ne hqueue hne)
  have hnext : ∀ {queue}, m.holder = none → m.queue = id :: queue → m.isNext id :=
    fun hholder hqueue => isNext_iff.mpr ⟨hholder, by rw [hqueue, List.head?_cons]⟩
  have hnotHolder : m.holder = none → ¬ m.holder = some id := fun hholder => by simp [hholder]
  cases h with
  | @granted first queue task _ hholder hqueue hfirst =>
      obtain ⟨rfl, hcount⟩ := htail hqueue
      by_cases hne : first = id
      · subst hne
        cases hthread.symm.trans hfirst
        exact .begun (hnext hholder hqueue)
      · refine .rest ⟨(thread?_proceed_of_ne hne).trans hthread, now_proceed,
          fun h => absurd h (hnotHolder hholder),
          iff_of_false (holder_proceed_ne hne) (hnotHolder hholder), ?_, fun _ => hnotNext hqueue hne⟩
        rwa [queue_proceed]
  | @looked first queue wait _ hholder hqueue hfirst =>
      obtain ⟨rfl, hcount⟩ := htail hqueue
      by_cases hne : first = id
      · subst hne
        cases hthread.symm.trans hfirst
        exact .looked (hnext hholder hqueue)
      · exact .rest ⟨(thread?_progress_of_ne hne _ _).trans hthread, now_progress _ _ _ _,
          fun h => absurd h (hnotHolder hholder), by rw [holder_progress],
          Nat.le_trans (count_queue_progress hne _ _) hcount, fun _ => hnotNext hqueue hne⟩
  | @skipped first queue _ hholder hqueue hended =>
      refine .rest ⟨hthread, rfl, fun _ => rfl, Iff.rfl, (htail hqueue).2, fun _ heq hnext => ?_⟩
      by_cases hne : first = id
      · exact hended thread (hne ▸ hthread)
      · exact hnotNext hqueue hne heq hnext

theorem turn_of_apply (hthread : m.thread? id = some thread) (hmove : m.apply move = some m') :
    m.Turn id thread move m' := by
  have hstep := step_of_apply hmove
  cases move with
  | call call =>
      cases hstep
      exact .rest (.spawn hthread _ nofun)
  | wait deadline =>
      cases hstep
      exact .rest (.spawn hthread _ nofun)
  | handOver fates => exact turn_of_handOver hthread hstep
  | reply answer =>
      cases hstep with
      | @answered first _ _ _ hholder hfirst =>
          by_cases hne : first = id
          · subst hne
            cases hthread.symm.trans hfirst
            exact .answered hholder
          · have hnotHolder : ¬ m.holder = some id := by simp [hholder, hne]
            exact .rest ⟨(thread?_proceed_of_ne hne).trans hthread, now_proceed,
              fun h => absurd h hnotHolder, iff_of_false (holder_proceed_ne hne) hnotHolder,
              Nat.le_of_eq (congrArg (List.count id) queue_proceed), nofun⟩
  | advance other =>
      cases hstep with
      | advanced hother hadvance =>
          by_cases hne : other = id
          · subst hne
            cases hthread.symm.trans hother
            exact .advanced hadvance
          · exact .rest ⟨(thread?_progress_of_ne hne _ _).trans hthread, now_progress _ _ _ _,
              fun _ => world_progress _ _ _ _, by rw [holder_progress], count_queue_progress hne _ _,
              nofun⟩
  | expire other =>
      cases hstep with
      | expired hother hoverdue hnot _ =>
          by_cases hne : other = id
          · subst hne
            cases hthread.symm.trans hother
            exact .expired hoverdue hnot
          · exact .rest ⟨(thread?_put_of_ne _ hne).trans hthread, rfl, fun _ => rfl, Iff.rfl,
              List.filter_sublist.count_le id, nofun⟩
  | tick duration =>
      cases hstep with
      | ticked _ hidle => exact .tick (List.all_eq_true.mp hidle thread (List.mem_of_getElem? hthread))

/-! ### Runs -/

variable {moves before after : List Move}

theorem run_append : m.run (before ++ after) = some m' ↔
    ∃ middle, m.run before = some middle ∧ middle.run after = some m' := by
  rw [run, List.foldlM_append]
  exact Option.bind_eq_some_iff

theorem run_cons : m.run (move :: moves) = some m' ↔
    ∃ next, m.apply move = some next ∧ next.run moves = some m' :=
  Option.bind_eq_some_iff

/-- What every move keeps, a run keeps. -/
theorem invariant_run {I : Machine → Prop}
    (happly : ∀ {m move m'}, I m → m.apply move = some m' → I m') (h : I m)
    (hrun : m.run moves = some m') : I m' := by
  induction moves generalizing m with
  | nil =>
      obtain rfl := Option.some.inj hrun
      exact h
  | cons move rest ih =>
      obtain ⟨next, hmove, hrest⟩ := run_cons.mp hrun
      exact ih (happly h hmove) hrest

/-! ### The queue -/

def Enlisted (m : Machine) : Prop := ∀ id ∈ m.queue, id < m.threads.length

theorem length_threads_proceed (m : Machine) (id : Nat) (task : Task (Except NetworkError Answer)) :
    (m.proceed id task).threads.length = m.threads.length := by
  unfold Machine.proceed
  split <;> exact List.length_set

theorem Enlisted.progress (h : m.Enlisted) (hid : id < m.threads.length) (wait : Wait)
    (progress : Wait.Progress) : (m.progress id wait progress).Enlisted := by
  intro other hother
  rw [threads_progress, List.length_set]
  rw [queue_progress, List.mem_append] at hother
  rcases hother with hother | hother
  · exact h other hother
  · obtain rfl : other = id := by
      cases progress with
      | ended result => cases hother
      | phase phase =>
          dsimp only at hother
          split at hother
          next => exact List.mem_singleton.mp hother
          next => cases hother
    exact hid

theorem Enlisted.spawn (h : m.Enlisted) (new : Thread) : (m.spawn new).Enlisted := by
  intro id hid
  simp only [Machine.spawn, List.mem_append, List.mem_singleton, List.length_append,
    List.length_singleton] at hid ⊢
  rcases hid with hid | rfl
  · exact Nat.lt_succ_of_lt (h id hid)
  · exact Nat.lt_succ_self _

theorem Enlisted.proceed (h : m.Enlisted) (task : Task (Except NetworkError Answer)) :
    (m.proceed id task).Enlisted := by
  intro other hother
  rw [queue_proceed] at hother
  rw [length_threads_proceed]
  exact h other hother

theorem Enlisted.apply (h : m.Enlisted) (hmove : m.apply move = some m') : m'.Enlisted := by
  have htail : ∀ {first queue}, m.queue = first :: queue → Enlisted { m with queue } :=
    fun {first _} hqueue id hid => h id (hqueue ▸ List.mem_cons_of_mem first hid)
  cases step_of_apply hmove with
  | called call => exact h.spawn _
  | awaited deadline => exact h.spawn _
  | granted _ hqueue _ => exact (htail hqueue).proceed _
  | looked _ hqueue hthread => exact (htail hqueue).progress (List.getElem?_eq_some_iff.mp hthread).1 _ _
  | skipped _ hqueue _ => exact htail hqueue
  | answered _ _ =>
      refine Enlisted.proceed ?_ _
      exact h
  | advanced hthread _ => exact h.progress (List.getElem?_eq_some_iff.mp hthread).1 _ _
  | expired _ _ _ _ =>
      intro id hid
      rw [Machine.put, List.length_set]
      exact h id (List.mem_filter.mp hid).1
  | ticked _ _ => exact h

theorem Enlisted.run (h : m.Enlisted) (hrun : m.run moves = some m') : m'.Enlisted :=
  invariant_run Enlisted.apply h hrun

theorem enlisted_start (network : Network) (interval now : Nat) (w : World) :
    (start network interval now w).Enlisted := nofun

/-! ### Where threads come from -/

/-- A thread was there before a move, or it is one that the move adds. -/
theorem origin_of_apply (hmove : m.apply move = some m') (h : m'.thread? id = some thread) :
    (∃ old, m.thread? id = some old) ∨ id = m.threads.length ∧
      ((∃ call, move = .call call ∧ thread = .calling (call.operation m.network).run) ∨
        ∃ deadline, move = .wait deadline ∧ thread = .waiting (.start deadline m.interval)) := by
  have hold : m'.threads.length = m.threads.length → ∃ old, m.thread? id = some old := fun hlength =>
    ⟨_, List.getElem?_eq_getElem (hlength ▸ (List.getElem?_eq_some_iff.mp h).1)⟩
  cases step_of_apply hmove with
  | called call =>
      rcases thread?_spawn_eq_some_iff.mp h with hthread | ⟨rfl, rfl⟩
      · exact .inl ⟨thread, hthread⟩
      · exact .inr ⟨rfl, .inl ⟨call, rfl, rfl⟩⟩
  | awaited deadline =>
      rcases thread?_spawn_eq_some_iff.mp h with hthread | ⟨rfl, rfl⟩
      · exact .inl ⟨thread, hthread⟩
      · exact .inr ⟨rfl, .inr ⟨deadline, rfl, rfl⟩⟩
  | granted _ _ _ => exact .inl (hold (length_threads_proceed _ _ _))
  | looked _ _ _ => exact .inl (hold (length_threads_progress _ _ _ _))
  | skipped _ _ _ => exact .inl (hold rfl)
  | answered _ _ => exact .inl (hold (length_threads_proceed _ _ _))
  | advanced _ _ => exact .inl (hold (length_threads_progress _ _ _ _))
  | expired _ _ _ _ => exact .inl (hold List.length_set)
  | ticked _ _ => exact .inl (hold rfl)

end Localnet.Machine
