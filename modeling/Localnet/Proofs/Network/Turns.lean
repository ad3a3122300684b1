import Localnet.Proofs.Network.Replay

/-!
# Who had the registry, and when

The registry is handed over from thread to thread. A call that gets it is served before anybody else has
a look, so that at every moment the calls are those that were served, at most one that has the registry,
and those that wait for their turn.
-/

namespace Localnet.Machine

variable {network : Network} {w : World} {made : List (Option Call)} {seen : List Look}
  {served : List Served} {look : Look} {call : Call} {id other : Nat} {thread : Thread}
  {task : Task (Except NetworkError Answer)} {m m' : Machine} {move : Move}
  {moves before after : List Move}

/-! ### Looks at the registry -/

def lookOf (m : Machine) : Move → List Look
  | .handOver _ => if m.holder.isNone then m.queue.head?.toList.map fun id => ⟨id, m⟩ else []
  | .call _ | .wait _ | .reply _ | .advance _ | .expire _ | .tick _ => []

/-- The threads that the registry is handed over to in the course of some moves, in their order. -/
def looks : Machine → List Move → List Look
  | _, [] => []
  | m, move :: rest =>
    m.lookOf move ++
      match m.apply move with
      | some m' => looks m' rest
      | none => []

theorem looks_cons (hmove : m.apply move = some m') (rest : List Move) :
    looks m (move :: rest) = m.lookOf move ++ looks m' rest := by
  rw [looks, hmove]

theorem lookOf_handOver {fates : Client → Fate} {queue : List Nat} (hidle : m.holder = none)
    (hqueue : m.queue = id :: queue) : m.lookOf (.handOver fates) = [⟨id, m⟩] := by
  simp [lookOf, hidle, hqueue]

theorem of_mem_lookOf (h : look ∈ m.lookOf move) :
    look.network = m ∧ (∃ fates, move = .handOver fates) ∧ m.isNext look.thread := by
  unfold lookOf at h
  split at h
  next fates =>
    split at h
    next hidle =>
      obtain ⟨id, hid, rfl⟩ := List.mem_map.mp h
      refine ⟨rfl, ⟨fates, rfl⟩, isNext_iff.mpr ⟨Option.isNone_iff_eq_none.mp hidle, ?_⟩⟩
      exact Option.mem_toList.mp hid
    next => cases h
  all_goals cases h

theorem exists_run_of_mem_looks (hrun : m.run moves = some m') (h : look ∈ looks m moves) :
    ∃ before fates after, moves = before ++ .handOver fates :: after ∧
      m.run before = some look.network ∧ look.network.isNext look.thread := by
  induction moves generalizing m with
  | nil => cases h
  | cons move rest ih =>
      obtain ⟨next, hmove, hrest⟩ := run_cons.mp hrun
      rw [looks_cons hmove, List.mem_append] at h
      rcases h with h | h
      · obtain ⟨rfl, ⟨fates, rfl⟩, hnext⟩ := of_mem_lookOf h
        exact ⟨[], fates, rest, rfl, rfl, hnext⟩
      · obtain ⟨before, fates, after, rfl, hbefore, hnext⟩ := ih hrest h
        exact ⟨move :: before, fates, after, rfl, run_cons.mpr ⟨next, hmove, hbefore⟩, hnext⟩

/-! ### The calls that are made -/

/-- What the threads are for that a move adds: a call each, or a wait. -/
def arrivalsOf : Move → List (Option Call)
  | .call call => [some call]
  | .wait _ => [none]
  | .handOver _ | .reply _ | .advance _ | .expire _ | .tick _ => []

def arrivals (moves : List Move) : List (Option Call) := moves.flatMap arrivalsOf

/-- The call that a thread is for. -/
def madeBy? (made : List (Option Call)) (id : Nat) : Option Call := made[id]?.join

theorem madeBy?_concat {new : Option Call} : madeBy? (made ++ [new]) id = some call ↔
    madeBy? made id = some call ∨ id = made.length ∧ new = some call := by
  unfold madeBy?
  rcases Nat.lt_trichotomy id made.length with hlt | rfl | hgt
  · rw [List.getElem?_append_left hlt]
    exact (or_iff_left fun h => absurd h.1 (Nat.ne_of_lt hlt)).symm
  · simp
  · rw [List.getElem?_eq_none (by simp; omega), List.getElem?_eq_none (Nat.le_of_lt hgt)]
    simp [Nat.ne_of_gt hgt]

/-! ### Where the calls are -/

/-- Each call that was made waits for its turn, has the registry, or was served once. -/
structure Roster (network : Network) (made : List (Option Call)) (served : List Served)
    (m : Machine) : Prop where
  network_eq : m.network = network
  arrived : m.threads.length = made.length
  fresh : ∀ id task, m.thread? id = some (.calling task) → m.holder ≠ some id →
    ∃ call, madeBy? made id = some call ∧ task = (call.operation network).run
  holding : ∀ id, m.holder = some id → ∃ task, m.thread? id = some (.calling task)
  calls : ∀ id call, madeBy? made id = some call →
    m.thread? id = some (.calling (call.operation network).run) ∨ m.holder = some id ∨
      ∃ x ∈ served, x.look.thread = id ∧ x.call = call
  ended : ∀ x ∈ served, madeBy? made x.look.thread = some x.call ∧
    m.thread? x.look.thread = some (.ended x.result)
  once : (served.map (·.look.thread)).Nodup

theorem roster_start (network : Network) (interval now : Nat) (w : World) :
    Roster network [] [] (start network interval now w) := by
  constructor <;> simp [start, thread?, madeBy?]

theorem Roster.spawn (h : Roster network made served m) {new : Thread} {call? : Option Call}
    (hcall : ∀ call, call? = some call → new = .calling (call.operation network).run)
    (hcalling : ∀ task, new = .calling task → ∃ call, call? = some call ∧
      task = (call.operation network).run) :
    Roster network (made ++ [call?]) served (m.spawn new) where
  network_eq := h.network_eq
  arrived := by simp [Machine.spawn, h.arrived]
  fresh id task hthread hholder := by
    rcases thread?_spawn_eq_some_iff.mp hthread with hthread | ⟨rfl, hnew⟩
    · obtain ⟨call, hmade, htask⟩ := h.fresh id task hthread hholder
      exact ⟨call, madeBy?_concat.mpr (.inl hmade), htask⟩
    · obtain ⟨call, hcall?, htask⟩ := hcalling task hnew
      exact ⟨call, madeBy?_concat.mpr (.inr ⟨h.arrived, hcall?⟩), htask⟩
  holding id hholder := by
    obtain ⟨task, hthread⟩ := h.holding id hholder
    exact ⟨task, thread?_spawn hthread new⟩
  calls id call hmade := by
    rcases madeBy?_concat.mp hmade with hmade | ⟨rfl, hcall?⟩
    · exact (h.calls id call hmade).imp_left fun hthread => thread?_spawn hthread new
    · exact .inl (thread?_spawn_eq_some_iff.mpr (.inr ⟨h.arrived.symm, hcall call hcall?⟩))
  ended x hx := by
    obtain ⟨hmade, hthread⟩ := h.ended x hx
    exact ⟨madeBy?_concat.mpr (.inl hmade), thread?_spawn hthread new⟩
  once := h.once

/-- What was served stays so, whatever becomes of a thread that has not ended. -/
theorem Roster.ended_of_sameBut {old : Thread} (h : Roster network made served m) (hsame : SameBut id m m')
    (hid : m.thread? id = some old) (hold : ∀ result, old ≠ .ended result) :
    ∀ x ∈ served, madeBy? made x.look.thread = some x.call ∧
      m'.thread? x.look.thread = some (.ended x.result) := by
  intro x hx
  obtain ⟨hmade, hthread⟩ := h.ended x hx
  exact ⟨hmade, hsame.thread?_of_ne hid hthread (hold x.result).symm⟩

/-- A wait goes on, or ends. -/
theorem Roster.others {wait : Wait} (h : Roster network made served m) (hsame : SameBut id m m')
    (hwait : m.thread? id = some (.waiting wait)) (hholder : m'.holder = m.holder)
    (hself : ∀ task, m'.thread? id ≠ some (.calling task)) : Roster network made served m' where
  network_eq := hsame.network_eq.trans h.network_eq
  arrived := hsame.length_eq.trans h.arrived
  fresh other task hthread hnot := by
    have hne : other ≠ id := by
      rintro rfl
      exact hself task hthread
    exact h.fresh other task (hsame.thread?_eq other hne ▸ hthread) (hholder ▸ hnot)
  holding other hother := by
    obtain ⟨task, hthread⟩ := h.holding other (hholder ▸ hother)
    exact ⟨task, hsame.thread?_of_ne hwait hthread nofun⟩
  calls other call hmade := by
    rw [hholder]
    exact (h.calls other call hmade).imp_left fun hthread => hsame.thread?_of_ne hwait hthread nofun
  ended := h.ended_of_sameBut hsame hwait fun _ => nofun
  once := h.once

/-- A call goes on to what it asks of the host. -/
theorem Roster.holds (h : Roster network made served m) (hsame : SameBut id m m')
    (hthread : m.thread? id = some (.calling task))
    (hholder : ∀ other, other ≠ id → m.holder ≠ some other) (hholder' : m'.holder = some id)
    (hself : ∃ task, m'.thread? id = some (.calling task)) : Roster network made served m' where
  network_eq := hsame.network_eq.trans h.network_eq
  arrived := hsame.length_eq.trans h.arrived
  fresh other task hother hnot := by
    have hne : other ≠ id := fun heq => hnot (heq ▸ hholder')
    exact h.fresh other task (hsame.thread?_eq other hne ▸ hother) (hholder other hne)
  holding other hother := by
    obtain rfl := Option.some.inj (hholder'.symm.trans hother)
    exact hself
  calls other call hmade := by
    by_cases hne : other = id
    · exact .inr (.inl (hne ▸ hholder'))
    · rcases h.calls other call hmade with hother | hother | hserved
      · exact .inl ((hsame.thread?_eq other hne).trans hother)
      · exact absurd hother (hholder other hne)
      · exact .inr (.inr hserved)
  ended := h.ended_of_sameBut hsame hthread fun _ => nofun
  once := h.once

/-- A call comes to its end. -/
theorem Roster.ends {x : Served} (h : Roster network made served m)
    (hsame : SameBut x.look.thread m m') (hthread : m.thread? x.look.thread = some (.calling task))
    (hholder : ∀ other, other ≠ x.look.thread → m.holder ≠ some other)
    (hmade : madeBy? made x.look.thread = some x.call) (hholder' : m'.holder = none)
    (hself : m'.thread? x.look.thread = some (.ended x.result)) :
    Roster network made (served ++ [x]) m' where
  network_eq := hsame.network_eq.trans h.network_eq
  arrived := hsame.length_eq.trans h.arrived
  fresh other task hother _ := by
    have hne : other ≠ x.look.thread := by
      rintro rfl
      cases hself.symm.trans hother
    exact h.fresh other task (hsame.thread?_eq other hne ▸ hother) (hholder other hne)
  holding other hother := by
    rw [hholder'] at hother
    cases hother
  calls other call hmade' := by
    by_cases hne : other = x.look.thread
    · subst hne
      refine .inr (.inr ⟨x, List.mem_append_right _ (List.mem_singleton_self x), rfl, ?_⟩)
      exact Option.some.inj (hmade.symm.trans hmade')
    · rcases h.calls other call hmade' with hother | hother | ⟨y, hy, hserved⟩
      · exact .inl ((hsame.thread?_eq other hne).trans hother)
      · exact absurd hother (hholder other hne)
      · exact .inr (.inr ⟨y, List.mem_append_left _ hy, hserved⟩)
  ended := by
    rw [List.forall_mem_append, List.forall_mem_singleton]
    exact ⟨h.ended_of_sameBut hsame hthread fun _ => nofun, hmade, hself⟩
  once := by
    rw [List.map_append, List.map_singleton, List.nodup_append]
    refine ⟨h.once, List.nodup_singleton _, fun id hid other hother heq => ?_⟩
    obtain ⟨y, hy, rfl⟩ := List.mem_map.mp hid
    rw [List.mem_singleton.mp hother] at heq
    have hended := (h.ended y hy).2
    rw [heq] at hended
    cases hthread.symm.trans hended

/-! ### Runs -/

/-- The calls that were served, in the order in which they got the registry, account for the world; if a
call has the registry, they do so up to it. -/
structure Account (network : Network) (w : World) (made : List (Option Call)) (seen : List Look)
    (served : List Served) (m : Machine) : Prop where
  roster : Roster network made served m
  idle : m.holder = none → seen.filter (·.isCall) = served.map (·.look) ∧
    Serially network w served m.world
  held : ∀ id, m.holder = some id → ∃ look call task, look.thread = id ∧
    seen.filter (·.isCall) = served.map (·.look) ++ [look] ∧ madeBy? made id = some call ∧
    m.thread? id = some (.calling task) ∧ Midway network w served look call task m.world

theorem account_start (network : Network) (interval now : Nat) (w : World) :
    Account network w [] [] [] (start network interval now w) :=
  ⟨roster_start network interval now w, fun _ => ⟨rfl, serially_start network w⟩, fun _ => nofun⟩

/-- A call that got the registry, or an answer, goes on. -/
theorem Account.proceed {old : Task (Except NetworkError Answer)} {world : World} (look : Look)
    (queue : List Nat) (hroster : Roster network made served m)
    (hthread : m.thread? look.thread = some (.calling old))
    (hholder : ∀ other, other ≠ look.thread → m.holder ≠ some other)
    (hmade : madeBy? made look.thread = some call)
    (hseen : seen.filter (·.isCall) = served.map (·.look) ++ [look])
    (hmidway : Midway network w served look call task world) :
    ∃ served', Account network w made seen served'
      ({ m with world, queue }.proceed look.thread task) := by
  have hself := fun new => thread?_put_self (m := { m with world, queue }) hthread new
  have hmidway' := hmidway.settle
  rcases hsettle : world.settle task with ⟨result | ⟨request, next⟩, w'⟩
  · rw [hsettle] at hmidway'
    rw [proceed_of_settle_done hsettle]
    refine ⟨served ++ [⟨look, call, result, w'⟩], ?_, fun _ => ⟨?_, hmidway'.ends⟩, fun _ => nofun⟩
    · exact hroster.ends (x := ⟨look, call, result, w'⟩) (sameBut_put _ _ _ _) hthread hholder hmade rfl
        (hself _)
    · rw [hseen, List.map_append, List.map_singleton]
  · rw [hsettle] at hmidway'
    rw [proceed_of_settle_ask hsettle]
    refine ⟨served, ?_, nofun, fun id hid => ?_⟩
    · exact hroster.holds (sameBut_put _ _ _ _) hthread hholder rfl ⟨_, hself _⟩
    · obtain rfl := Option.some.inj hid
      exact ⟨look, call, _, rfl, hseen, hmade, hself _, hmidway'⟩

theorem Account.spawn (h : Account network w made seen served m) {new : Thread} {call? : Option Call}
    (hroster : Roster network (made ++ [call?]) served (m.spawn new)) :
    Account network w (made ++ [call?]) seen served (m.spawn new) where
  roster := hroster
  idle := h.idle
  held id hid := by
    obtain ⟨look, call, task, hlook, hseen, hmade, hthread, hmidway⟩ := h.held id hid
    exact ⟨look, call, task, hlook, hseen, madeBy?_concat.mpr (.inl hmade), thread?_spawn hthread new,
      hmidway⟩

/-- A wait goes on, or ends. -/
theorem Account.others {wait : Wait} (h : Account network w made seen served m)
    (hwait : m.thread? id = some (.waiting wait)) (hsame : SameBut id m m') (hholder : m'.holder = m.holder)
    (hworld : m'.world = m.world) (hself : ∀ task, m'.thread? id ≠ some (.calling task)) :
    Account network w made seen served m' where
  roster := h.roster.others hsame hwait hholder hself
  idle hidle := by
    rw [hworld]
    exact h.idle (hholder ▸ hidle)
  held other hother := by
    obtain ⟨look, call, task, hlook, hseen, hmade, hthread, hmidway⟩ := h.held other (hholder ▸ hother)
    exact ⟨look, call, task, hlook, hseen, hmade, hsame.thread?_of_ne hwait hthread nofun,
      hworld ▸ hmidway⟩

theorem Account.progress {wait : Wait} (h : Account network w made seen served m)
    (hwait : m.thread? id = some (.waiting wait)) (progress : Wait.Progress) :
    Account network w made seen served (m.progress id wait progress) := by
  refine h.others hwait (sameBut_progress wait progress) (holder_progress _ _ _ _) (world_progress _ _ _ _)
    fun task hthread => ?_
  rw [thread?_progress_self hwait] at hthread
  cases progress <;> cases hthread

/-- What is neither a call's turn nor a wait's. -/
theorem Account.same (h : Account network w made seen served m) (now : Nat) (queue : List Nat) :
    Account network w made seen served { m with now, queue } where
  roster := ⟨h.roster.network_eq, h.roster.arrived, h.roster.fresh, h.roster.holding, h.roster.calls,
    h.roster.ended, h.roster.once⟩
  idle := h.idle
  held := h.held

/-- A look that is not a call's is not counted. -/
theorem Account.skip (h : Account network w made seen served m) (hnot : look.isCall = false) :
    Account network w made (seen ++ [look]) served m := by
  have hseen : (seen ++ [look]).filter (·.isCall) = seen.filter (·.isCall) := by
    simp [List.filter_append, hnot]
  refine ⟨h.roster, ?_, ?_⟩
  · rw [hseen]
    exact h.idle
  · rw [hseen]
    exact h.held

theorem Account.granted {fates : Client → Fate} {queue : List Nat}
    (h : Account network w made seen served m) (hidle : m.holder = none) (hqueue : m.queue = id :: queue)
    (hthread : m.thread? id = some (.calling task)) :
    ∃ served', Account network w made (seen ++ m.lookOf (.handOver fates)) served'
      ({ m with queue }.proceed id task) := by
  obtain ⟨hserved, hserially⟩ := h.idle hidle
  obtain ⟨call, hmade, rfl⟩ := h.roster.fresh id task hthread (by simp [hidle])
  have hcall : (⟨id, m⟩ : Look).isCall = true := by rw [Look.isCall, hthread]
  rw [lookOf_handOver hidle hqueue]
  refine Account.proceed ⟨id, m⟩ queue h.roster hthread (by simp [hidle]) hmade ?_
    (hserially.begins call)
  rw [List.filter_append, hserved]
  simp [hcall]

theorem Account.answered {answer : (request : HostRequest) → request.Answer} {request : HostRequest}
    {next : request.Reply → Task (Except NetworkError Answer)}
    (h : Account network w made seen served m) (hholder : m.holder = some id)
    (hthread : m.thread? id = some (.calling (Program.ask (Request.host request) next))) :
    ∃ served', Account network w made seen served'
      ({ m with world := m.world.record request (m.world.grant request (answer request)) }.proceed id
        (next (m.world.grant request (answer request)))) := by
  obtain ⟨look, call, task, rfl, hseen, hmade, hthread', hmidway⟩ := h.held id hholder
  cases hthread.symm.trans hthread'
  exact Account.proceed look m.queue h.roster hthread (fun other => holder_ne_of_ne hholder) hmade hseen
    (hmidway.answered answer)

theorem Account.apply (h : Account network w made seen served m) (hmove : m.apply move = some m') :
    ∃ served', Account network w (made ++ arrivalsOf move) (seen ++ m.lookOf move) served' m' := by
  have hquiet : ∀ {l : List Look} {served' m'}, Account network w made seen served' m' → l = [] →
      Account network w (made ++ []) (seen ++ l) served' m' := by
    rintro l served' m' h rfl
    rwa [List.append_nil, List.append_nil]
  cases step_of_apply hmove with
  | called call =>
      refine ⟨served, ?_⟩
      rw [lookOf, List.append_nil]
      refine h.spawn (h.roster.spawn ?_ ?_)
      · rintro _ ⟨⟩
        rw [h.roster.network_eq]
      · rintro _ ⟨⟩
        exact ⟨call, rfl, by rw [h.roster.network_eq]⟩
  | awaited deadline =>
      refine ⟨served, ?_⟩
      rw [lookOf, List.append_nil]
      exact h.spawn (h.roster.spawn (fun _ => nofun) fun _ => nofun)
  | granted hidle hqueue hthread =>
      rw [arrivalsOf, List.append_nil]
      exact h.granted hidle hqueue hthread
  | @looked id queue _ _ hidle hqueue hthread =>
      have hnot : (⟨id, m⟩ : Look).isCall = false := by rw [Look.isCall, hthread]
      rw [arrivalsOf, List.append_nil, lookOf_handOver hidle hqueue]
      exact ⟨served, ((h.skip hnot).same m.now queue).progress hthread _⟩
  | @skipped id queue _ hidle hqueue hended =>
      have hnot : (⟨id, m⟩ : Look).isCall = false := by
        rw [Look.isCall]
        cases hthread : m.thread? id with
        | none => rfl
        | some thread =>
            obtain ⟨result, rfl⟩ := hended thread hthread
            rfl
      rw [arrivalsOf, List.append_nil, lookOf_handOver hidle hqueue]
      exact ⟨served, (h.skip hnot).same m.now queue⟩
  | answered hholder hthread =>
      obtain ⟨served', h'⟩ := h.answered hholder hthread
      exact ⟨served', hquiet h' rfl⟩
  | advanced hthread _ => exact ⟨served, hquiet (h.progress hthread _) rfl⟩
  | expired hthread _ _ _ =>
      refine ⟨served, hquiet (h.others hthread (sameBut_put _ _ _ _) rfl rfl fun task hother => ?_) rfl⟩
      cases (thread?_put_self hthread _).symm.trans hother
  | ticked _ _ => exact ⟨served, hquiet (h.same _ m.queue) rfl⟩

/-- At every moment of a run, some calls account for the world. -/
theorem Account.run (h : Account network w made seen served m) (hrun : m.run moves = some m') :
    ∃ served', Account network w (made ++ arrivals moves) (seen ++ looks m moves) served' m' := by
  induction moves generalizing made seen served m with
  | nil =>
      obtain rfl := Option.some.inj hrun
      exact ⟨served, by simpa [arrivals, looks] using h⟩
  | cons move rest ih =>
      obtain ⟨next, hmove, hrest⟩ := run_cons.mp hrun
      obtain ⟨served₁, hnext⟩ := h.apply hmove
      obtain ⟨served', h'⟩ := ih hnext hrest
      rw [List.append_assoc, List.append_assoc, ← looks_cons hmove] at h'
      exact ⟨served', by rwa [arrivals, List.flatMap_cons]⟩

end Localnet.Machine
