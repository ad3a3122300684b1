import Localnet.Proofs.Process.Turns

/-!
# The life of a handle

However calls, spawn failures, the child and its supervisor take turns, a handle launches one child at
the most and learns once how it ended. All waits tell of that one exit. A stop that comes after the end
of the child may still be what the supervisor sees first, and the exit then counts as requested.
-/

namespace Localnet.Handle

variable {h h' h₁ h₂ : Handle} {node path : String} {args : List String} {id : Nat} {call : HandleCall}
  {move : HandleMove} {moves before after : List HandleMove} {result : Except HandleFault Unit}
  {exit : Exit} {s : Supervision}

/-! ### The child and its exit -/

/-- What is known of a child hangs together: an exit is told of a child that has ended, and one that was
requested is that of a child that was to stop. -/
structure Coherent (s : Supervision) : Prop where
  terminating : s.supervisor = .terminating → s.stopRequested
  ended : ∀ exit, s.supervisor = .finished exit → s.ending = some exit.ending
  requested : ∀ exit, s.supervisor = .finished exit → exit.requested → s.stopRequested

theorem coherent_launchedChild : Coherent launchedChild := by
  constructor <;> simp [launchedChild]

theorem Coherent.stop (hs : Coherent s) : Coherent { s with stopRequested := true } :=
  ⟨fun _ => rfl, hs.ended, fun _ _ _ => rfl⟩

theorem Coherent.watched {s' : Supervision} (hs : Coherent s) (hwatched : Watched move s s') :
    Coherent s' := by
  cases hwatched with
  | childEnds ending hruns =>
      refine ⟨hs.terminating, fun exit hexit => ?_, hs.requested⟩
      cases hruns.symm.trans (hs.ended exit hexit)
  | noticeEnd hwatching hended =>
      refine ⟨nofun, fun exit hexit => ?_, fun exit hexit hrequested => ?_⟩
      all_goals obtain rfl := SupervisorState.finished.inj hexit
      · exact hended
      · cases hrequested
  | noticeRequest hwatching hrequested => exact ⟨fun _ => hrequested, nofun, nofun⟩
  | reap hterminating hended =>
      refine ⟨nofun, fun exit hexit => ?_, fun _ _ _ => hs.terminating hterminating⟩
      obtain rfl := SupervisorState.finished.inj hexit
      exact hended

theorem coherent_of_run (hrun : (new node path args).run moves = some h) :
    ∀ s, h.supervision = some s → Coherent s := by
  refine run_induction (P := fun h _ => ∀ s, h.supervision = some s → Coherent s)
    (by simp [new]) ?_ hrun
  intro moves h₁ move h₂ _ ih hstep s hs
  cases hstep with
  | call | acquire | refuse | fail | watch | neverStarted | observe => exact ih s hs
  | launch hcall hnew =>
      obtain rfl := Option.some.inj hs
      exact coherent_launchedChild
  | stop launch hcall =>
      obtain ⟨old, hold, rfl⟩ := Option.map_eq_some_iff.mp hs
      exact (ih old hold).stop
  | supervise hold hwatched =>
      obtain rfl := Option.some.inj hs
      exact (ih _ hold).watched hwatched

/-- What was launched and what was told are counted. -/
structure Counted (moves : List HandleMove) (h : Handle) : Prop where
  launched_eq : h.launched = if h.supervision.isSome then 1 else 0
  told_eq : moves.countP (·.tells) = if h.exit?.isSome then 1 else 0

theorem exit?_eq_of_watched {s' : Supervision} (hs : h.supervision = some s)
    (hwatched : Watched move s s') :
    (if ({ h with supervision := some s' } : Handle).exit?.isSome then 1 else 0) =
      (if h.exit?.isSome then 1 else 0) + if move.tells then 1 else 0 := by
  cases hwatched with
  | childEnds ending hruns => simp [exit?_eq_bind, hs, HandleMove.tells]
  | noticeEnd hwatching | noticeRequest hwatching =>
      simp [exit?_eq_bind, hs, hwatching, SupervisorState.exit?, HandleMove.tells]
  | reap hterminating =>
      simp [exit?_eq_bind, hs, hterminating, SupervisorState.exit?, HandleMove.tells]

theorem counted_of_run (hrun : (new node path args).run moves = some h) : Counted moves h := by
  refine run_induction (P := fun h moves => Counted moves h) ⟨rfl, rfl⟩ ?_ hrun
  intro moves h₁ move h₂ _ ih hstep
  have htold : (moves ++ [move]).countP (·.tells) =
      (if h₁.exit?.isSome then 1 else 0) + if move.tells then 1 else 0 := by
    rw [List.countP_append, ih.told_eq, List.countP_singleton]
  cases hstep with
  | call | acquire | refuse | fail | watch | neverStarted | observe => exact ⟨ih.launched_eq, htold⟩
  | launch hcall hnew =>
      refine ⟨?_, htold.trans ?_⟩
      · simp [ih.launched_eq, hnew]
      · simp [exit?_eq_bind, hnew, launchedChild, SupervisorState.exit?, HandleMove.tells]
  | stop launch hcall =>
      refine ⟨?_, htold.trans ?_⟩
      · simp [ih.launched_eq]
      · cases hs : h₁.supervision <;> simp [exit?_eq_bind, hs, HandleMove.tells]
  | supervise hs hwatched =>
      refine ⟨?_, htold.trans (exit?_eq_of_watched hs hwatched).symm⟩
      simp [ih.launched_eq, hs]

/-! ### Starts -/

/-- A start that has launched a child. -/
def StartedBy (moves : List HandleMove) (h : Handle) (id : Nat) : Prop :=
  (asked moves)[id]? = some .start ∧ h.result? id = some (.ok ())

theorem StartedBy.isSome (hrun : (new node path args).run moves = some h) (hid : StartedBy moves h id) :
    h.supervision.isSome := by
  obtain ⟨earlier, move, later, h₁, h₂, -, -, hlater, -, -, hend⟩ :=
    exists_end_of_run hrun hid.1 hid.2
  cases hend with
  | launched hnew hchild => exact (kept_of_run hlater).started (by rw [hchild]; rfl)

theorem StartedBy.later (hrun : h.run after = some h') (hid : StartedBy before h id) :
    StartedBy (before ++ after) h' id :=
  ⟨asked_append before after ▸ getElem?_append_of_eq_some hid.1 _, result?_of_run hrun hid.2⟩

theorem exists_startedBy (hrun : (new node path args).run moves = some h) :
    h.supervision.isSome → ∃ id, StartedBy moves h id := by
  refine run_induction (P := fun h moves => h.supervision.isSome → ∃ id, StartedBy moves h id)
    (by simp [new]) ?_ hrun
  intro moves h₁ move h₂ hbefore ih hstep hstarted
  by_cases hearly : h₁.supervision.isSome
  · obtain ⟨id, hid⟩ := ih hearly
    exact ⟨id, asked_append moves _ ▸ getElem?_append_of_eq_some hid.1 _, (hstep.moved id).result? hid.2⟩
  have hnone : h₁.supervision = none := Option.not_isSome_iff_eq_none.mp hearly
  cases hstep with
  | @launch id hcall hnew =>
      obtain ⟨hlt, -⟩ := List.getElem?_eq_some_iff.mp hcall
      have hmade := (roster_of_run hbefore).made_of id _ .start hcall rfl
      refine ⟨id, asked_append moves _ ▸ getElem?_append_of_eq_some hmade _, ?_⟩
      exact result?_eq_some_iff.mpr (List.getElem?_set_self hlt)
  | call | acquire | refuse | fail | watch | neverStarted | observe => exact absurd hstarted hearly
  | stop launch hcall => exact absurd hstarted (by simp [hnone])
  | supervise hs hwatched => cases hnone.symm.trans hs

/-- A start that comes after the one that launched the child is refused. -/
theorem refused_of_started (hbefore : (new node path args).run before = some h)
    (hafter : h.run after = some h') (hstarted : h.supervision.isSome)
    (hcall : (asked (before ++ after))[id]? = some .start) (hopen : h.result? id = none)
    (hdone : h'.result? id = some result) : result = .error (.alreadyStarted node) := by
  obtain ⟨earlier, move, later, h₁, h₂, hearlier, -, -, -, -, hend⟩ :=
    exists_end hbefore hafter hcall hopen hdone
  have hkept : Kept h h₁ := kept_of_run hearlier
  have hnode : h₁.node = node := hkept.node_eq.trans (kept_of_run hbefore).node_eq
  have hsome : h₁.supervision.isSome := hkept.started hstarted
  cases hend with
  | refused => rw [hnode]
  | launched hnew | failed e hnew => simp [hnew] at hsome

/-- A step by which a start launches the child finds that there is none. -/
theorem Step.of_startedBy (hbefore : (new node path args).run moves = some h) (hstep : Step h move h')
    (hid : StartedBy (moves ++ [move]) h' id) :
    StartedBy moves h id ∨ h.supervision = none ∧ move.caller? = some id := by
  cases hopen : h.result? id with
  | some old =>
      obtain rfl := Option.some.inj (((hstep.moved id).result? hopen).symm.trans hid.2)
      have hlt : id < (asked moves).length := by
        rw [← (roster_of_run hbefore).length_eq]
        exact (List.getElem?_eq_some_iff.mp (result?_eq_some_iff.mp hopen)).1
      refine .inl ⟨?_, hopen⟩
      rw [← hid.1, asked_append, List.getElem?_append_left hlt]
  | none =>
      obtain ⟨hcaller, call, state, hstate, hof, hend⟩ := (hstep.moved id).ends_of hopen hid.2
      have hmade := (roster_of_run hbefore).made_of id state call hstate hof
      have hstart := hid.1
      rw [asked_append, getElem?_append_of_eq_some hmade] at hstart
      obtain rfl := Option.some.inj hstart
      cases hend with
      | launched hnew hchild => exact .inr ⟨hnew, hcaller⟩

theorem startedBy_unique {i j : Nat} (hrun : (new node path args).run moves = some h) :
    StartedBy moves h i → StartedBy moves h j → i = j := by
  refine run_induction (P := fun h moves => StartedBy moves h i → StartedBy moves h j → i = j)
    (fun hi => absurd hi.2 (by simp [new, result?])) ?_ hrun
  intro moves h₁ move h₂ hbefore ih hstep hi hj
  have hnot : ∀ id, h₁.supervision = none → ¬ StartedBy moves h₁ id := by
    intro id hnew hid
    have hstarted := hid.isSome hbefore
    simp [hnew] at hstarted
  rcases hstep.of_startedBy hbefore hi with hi | ⟨hnew, hi⟩
  · rcases hstep.of_startedBy hbefore hj with hj | ⟨hnew, -⟩
    · exact ih hi hj
    · exact absurd hi (hnot i hnew)
  · rcases hstep.of_startedBy hbefore hj with hj | ⟨-, hj⟩
    · exact absurd hj (hnot j hnew)
    · exact Option.some.inj (hi.symm.trans hj)

/-- A handle that has launched no child is as it was at first, but for its calls. -/
theorem eq_new_of_not_started (hrun : (new node path args).run moves = some h)
    (hnone : h.supervision = none) :
    { h with holder := none, calls := [] } = new node path args := by
  have hkept := kept_of_run hrun
  have hlaunched : h.launched = 0 := by rw [(counted_of_run hrun).launched_eq, hnone]; rfl
  cases h
  cases hkept.node_eq
  cases hkept.binaryPath_eq
  cases hkept.args_eq
  cases hnone
  cases hlaunched
  rfl

/-! ### Stops -/

/-- A stop acts while there is a child. -/
def StopsChild (h : Handle) : HandleMove → Prop
  | .act id _ => h.supervision.isSome ∧ h.calls[id]? = some (.holding .stop)
  | .call _ | .acquire _ | .observe _ | .childEnds _ | .noticeEnd | .noticeRequest | .reap => False

theorem Watched.stopRequested_eq {s' : Supervision} (hwatched : Watched move s s') :
    s'.stopRequested = s.stopRequested := by
  cases hwatched <;> rfl

theorem Watched.not_stopsChild {s' : Supervision} (hwatched : Watched move s s') :
    ¬ StopsChild h move := by
  cases hwatched <;> exact id

/-- Whether a child is to stop. -/
def IsToStop (h : Handle) : Prop := ∃ s, h.supervision = some s ∧ s.stopRequested

theorem Step.isToStop_iff (hstep : Step h move h') : IsToStop h' ↔ IsToStop h ∨ StopsChild h move := by
  cases hstep with
  | call | acquire | observe => simp [IsToStop, StopsChild]
  | refuse launch hcall | watch launch hcall | fail e hcall | neverStarted launch hcall =>
      simp [IsToStop, StopsChild, hcall]
  | launch hcall hnew => simp [IsToStop, StopsChild, hnew, launchedChild]
  | stop launch hcall =>
      cases hs : h.supervision <;> simp [IsToStop, StopsChild, hcall, hs]
  | supervise hs hwatched =>
      have hnot := hwatched.not_stopsChild (h := h)
      simp [IsToStop, hs, hwatched.stopRequested_eq, hnot]

/-- A move of a run at which a stop acts on the child. -/
def StopActs (h : Handle) (moves : List HandleMove) : Prop :=
  ∃ earlier move later h₁, moves = earlier ++ move :: later ∧ h.run earlier = some h₁ ∧
    StopsChild h₁ move

theorem stopActs_cons (hmove : h.apply move = some h₁) :
    StopActs h (move :: moves) ↔ StopsChild h move ∨ StopActs h₁ moves := by
  constructor
  · rintro ⟨_ | ⟨first, earlier⟩, last, later, h₂, hmoves, hearlier, hstop⟩
    · obtain ⟨rfl, rfl⟩ := List.cons.inj hmoves
      obtain rfl := Option.some.inj hearlier
      exact .inl hstop
    · obtain ⟨rfl, rfl⟩ := List.cons.inj hmoves
      obtain ⟨next, hnext, hrest⟩ := run_cons.mp hearlier
      obtain rfl := Option.some.inj (hmove.symm.trans hnext)
      exact .inr ⟨earlier, last, later, h₂, rfl, hrest, hstop⟩
  · rintro (hstop | ⟨earlier, last, later, h₂, rfl, hearlier, hstop⟩)
    · exact ⟨[], move, moves, h, rfl, rfl, hstop⟩
    · exact ⟨move :: earlier, last, later, h₂, rfl, run_cons.mpr ⟨h₁, hmove, hearlier⟩, hstop⟩

theorem isToStop_iff (hrun : h.run moves = some h') : IsToStop h' ↔ IsToStop h ∨ StopActs h moves := by
  induction moves generalizing h with
  | nil =>
      obtain rfl := Option.some.inj hrun
      have hnot : ¬ StopActs h [] := by rintro ⟨_ | _, _, _, _, hmoves, -⟩ <;> cases hmoves
      exact (or_iff_left hnot).symm
  | cons move rest ih =>
      obtain ⟨next, hmove, hrest⟩ := run_cons.mp hrun
      rw [ih hrest, (step_of_apply hmove).isToStop_iff, stopActs_cons hmove, or_assoc]

/-! ### Waits -/

/-- A wait that ends after the child was launched tells of its exit. -/
theorem verdict_of_started (hbefore : (new node path args).run before = some h)
    (hafter : h.run after = some h') (hstarted : h.supervision.isSome)
    (hcall : (asked (before ++ after))[id]? = some .wait) (hopen : h.result? id = none)
    (hdone : h'.result? id = some result) : ∃ exit, h'.exit? = some exit ∧ result = verdict node exit := by
  obtain ⟨earlier, move, later, h₁, h₂, hearlier, hstep, hlater, -, -, hend⟩ :=
    exists_end hbefore hafter hcall hopen hdone
  have hkept : Kept h h₁ := kept_of_run hearlier
  have hrest : Kept h₁ h' := hstep.kept.trans (kept_of_run hlater)
  have hnode : h₁.node = node := hkept.node_eq.trans (kept_of_run hbefore).node_eq
  have hsome : h₁.supervision.isSome := hkept.started hstarted
  cases hend with
  | neverStarted hnew => simp [hnew] at hsome
  | seen exit hexit => exact ⟨exit, hrest.exit exit hexit, by rw [hnode]⟩

theorem wait_result (hrun : (new node path args).run moves = some h)
    (hcall : (asked moves)[id]? = some .wait) (hdone : h.result? id = some result) :
    result = .error (.neverStarted node) ∨ ∃ exit, h.exit? = some exit ∧ result = verdict node exit := by
  obtain ⟨earlier, move, later, h₁, h₂, hearlier, hstep, hlater, -, -, hend⟩ :=
    exists_end_of_run hrun hcall hdone
  have hrest : Kept h₁ h := hstep.kept.trans (kept_of_run hlater)
  have hnode : h₁.node = node := (kept_of_run hearlier).node_eq
  cases hend with
  | neverStarted hnew => exact .inl (by rw [hnode])
  | seen exit hexit => exact .inr ⟨exit, hrest.exit exit hexit, by rw [hnode]⟩

theorem stop_result (hrun : (new node path args).run moves = some h)
    (hcall : (asked moves)[id]? = some .stop) (hdone : h.result? id = some result) :
    result = .ok () := by
  obtain ⟨_, _, _, _, _, -, -, -, -, -, hend⟩ := exists_end_of_run hrun hcall hdone
  cases hend with
  | stopped => rfl

/-! ### The whole life -/

/-- A handle is as one that nobody has started. -/
structure IsUnstarted (node path : String) (args : List String) (h : Handle) : Prop where
  eq_new : { h with holder := none, calls := [] } = new node path args
  start_launches : ∀ id, h.calls[id]? = some (.holding .start) → ∃ h', h.apply (.act id (.ok ())) = some h' ∧
    h'.result? id = some (.ok ()) ∧ h'.supervision = some launchedChild
  start_fails : ∀ id e, h.calls[id]? = some (.holding .start) → ∃ h', h.apply (.act id (.error e)) = some h' ∧
    h'.result? id = some (.error (.launch path e)) ∧
    { h' with holder := none, calls := [] } = new node path args

/-- What holds of a handle once the moves `before` have brought it to `h` and the moves `after` to `h'`. -/
structure LifeCycle (node path : String) (args : List String) (before after : List HandleMove)
    (h h' : Handle) : Prop where
  one_child : h'.launched ≤ 1
  one_start : ∀ i j, StartedBy (before ++ after) h' i → StartedBy (before ++ after) h' j → i = j
  unstarted : (∀ i, ¬ StartedBy before h i) → IsUnstarted node path args h
  refused : (∃ i, StartedBy before h i) → ∀ id result, (asked (before ++ after))[id]? = some .start →
    h.result? id = none → h'.result? id = some result → result = .error (.alreadyStarted node)
  stops : ∀ id result, (asked (before ++ after))[id]? = some .stop → h'.result? id = some result →
    result = .ok ()
  to_stop : IsToStop h' ↔ StopActs (new node path args) (before ++ after)
  requested : ∀ exit, h'.exit? = some exit → exit.requested → IsToStop h'
  one_exit : (before ++ after).countP (·.tells) ≤ 1
  exit_kept : ∀ exit, h.exit? = some exit → h'.exit? = some exit
  waits : ∀ id result, (asked (before ++ after))[id]? = some .wait → h'.result? id = some result →
    result = .error (.neverStarted node) ∨ ∃ exit, h'.exit? = some exit ∧ result = verdict node exit
  waits_of_started : (∃ i, StartedBy before h i) → ∀ id result,
    (asked (before ++ after))[id]? = some .wait → h.result? id = none → h'.result? id = some result →
      ∃ exit, h'.exit? = some exit ∧ result = verdict node exit
  results_kept : ∀ id result, h.result? id = some result → h'.result? id = some result
  free : ∀ id, h'.calls[id]? = some .watching → h'.holder ≠ some id
  turns : ∀ launch id call, h'.calls[id]? = some (.queued call) ∨ h'.calls[id]? = some (.holding call) →
    ∃ turns h'', turns.length ≤ 3 ∧ TurnsTo launch h' turns h'' id call

theorem isUnstarted (hrun : (new node path args).run moves = some h) (hnone : h.supervision = none) :
    IsUnstarted node path args h where
  eq_new := eq_new_of_not_started hrun hnone
  start_launches id hcall := by
    refine ⟨_, apply_act _ hcall, ?_⟩
    simp only [perform, hnone]
    exact ⟨result?_finish hcall _, rfl⟩
  start_fails id e hcall := by
    refine ⟨_, apply_act _ hcall, ?_⟩
    have hpath : h.binaryPath = path := (kept_of_run hrun).binaryPath_eq
    have hsame := eq_new_of_not_started hrun hnone
    simp only [perform, hnone]
    exact ⟨hpath ▸ result?_finish hcall _, hsame⟩

theorem lifeCycle_of_run (hbefore : (new node path args).run before = some h)
    (hafter : h.run after = some h') : LifeCycle node path args before after h h' := by
  have hrun : (new node path args).run (before ++ after) = some h' :=
    run_append.mpr ⟨h, hbefore, hafter⟩
  have hstarted : (∃ i, StartedBy before h i) → h.supervision.isSome := fun ⟨_, hi⟩ => hi.isSome hbefore
  exact {
    one_child := by
      rw [(counted_of_run hrun).launched_eq]
      split <;> omega
    one_start := fun i j => startedBy_unique hrun
    unstarted := fun hnot => by
      refine isUnstarted hbefore (Option.not_isSome_iff_eq_none.mp fun hsome => ?_)
      obtain ⟨i, hi⟩ := exists_startedBy hbefore hsome
      exact hnot i hi
    refused := fun hsome id result =>
      refused_of_started hbefore hafter (hstarted hsome)
    stops := fun id result => stop_result hrun
    to_stop := by
      have hnew : ¬ IsToStop (new node path args) := fun ⟨s, hs, _⟩ => nomatch hs
      rw [isToStop_iff hrun, or_iff_right hnew]
    requested := fun exit hexit hrequested => by
      obtain ⟨s, hs, hfinished⟩ := exit?_eq_some_iff.mp hexit
      exact ⟨s, hs, (coherent_of_run hrun s hs).requested exit hfinished hrequested⟩
    one_exit := by
      rw [(counted_of_run hrun).told_eq]
      split <;> omega
    exit_kept := (kept_of_run hafter).exit
    waits := fun id result => wait_result hrun
    waits_of_started := fun hsome id result =>
      verdict_of_started hbefore hafter (hstarted hsome)
    results_kept := fun id result => result?_of_run hafter
    free := fun id hwaits hholder => by
      obtain ⟨call, hcall⟩ := ((roster_of_run hrun).holding id).mp hholder
      cases hwaits.symm.trans hcall
    turns := fun launch id call => exists_turnsTo (roster_of_run hrun) launch }

/-- A stop and a start that cannot be launched come before the start, and a wait after it. -/
def retriedStart : List HandleMove :=
  [.call .stop, .acquire 0, .act 0 (.ok ()), .call .start, .acquire 1, .act 1 (.error .notFound),
    .call .start, .acquire 2, .act 2 (.ok ()), .call .wait, .acquire 3, .act 3 (.ok ())]

/-- The child fails; then come a start, a stop and a wait. -/
def lateCalls : List HandleMove :=
  [.childEnds (.exited (.code 3)), .noticeEnd, .observe 3, .call .start, .acquire 4, .act 4 (.ok ()),
    .call .stop, .acquire 5, .act 5 (.ok ()), .call .wait, .acquire 6, .act 6 (.ok ()), .observe 6]

theorem lifeCycle_of_retriedStart : ∃ h h', (new "n" "node" []).run retriedStart = some h ∧
    h.run lateCalls = some h' ∧ LifeCycle "n" "node" [] retriedStart lateCalls h h' ∧
    StartedBy retriedStart h 2 ∧ h'.result? 4 = some (.error (.alreadyStarted "n")) ∧
    h'.result? 3 = some (.error (.exited "n" (.exited (.code 3)))) ∧ h'.result? 6 = h'.result? 3 :=
  ⟨_, _, rfl, rfl, lifeCycle_of_run rfl rfl, ⟨rfl, rfl⟩, rfl, rfl, rfl⟩

/-! ### A stop that comes late -/

/-- Without a stop the exit is the child's own. -/
theorem not_requested_of_not_stopActs (hrun : (new node path args).run moves = some h)
    (hnot : ¬ StopActs (new node path args) moves) (hexit : h.exit? = some exit) :
    exit.requested = false := by
  by_contra hrequested
  obtain ⟨s, hs, hfinished⟩ := exit?_eq_some_iff.mp hexit
  have hstop : IsToStop h :=
    ⟨s, hs, (coherent_of_run hrun s hs).requested exit hfinished (by simpa using hrequested)⟩
  rcases (isToStop_iff hrun).mp hstop with ⟨_, hnone, -⟩ | hacts
  · cases hnone
  · exact hnot hacts

/-- A supervisor that may see a stop or the end of the child tells of either. -/
theorem exists_exit_of_watching {ending : Ending}
    (hs : h.supervision = some ⟨true, some ending, .watching⟩) (requested : Bool) :
    ∃ seen h', (∀ move ∈ seen, move.caller? = none) ∧ h.run seen = some h' ∧
      h'.exit? = some ⟨requested, ending⟩ := by
  cases h
  cases hs
  cases requested with
  | true => exact ⟨[.noticeRequest, .reap], _, by simp [HandleMove.caller?], rfl, rfl⟩
  | false => exact ⟨[.noticeEnd], _, by simp [HandleMove.caller?], rfl, rfl⟩

/-- When a stop comes after the end of the child and before the supervisor has seen it, the exit may
count as requested or not. -/
theorem exists_exit_of_lateStop {ending : Ending} (launch : Except SystemError Unit)
    (hs : h.supervision = some ⟨false, some ending, .watching⟩)
    (hcall : h.calls[id]? = some (.holding .stop)) (requested : Bool) :
    ∃ seen h', (∀ move ∈ seen, move.caller? = none) ∧ h.run (.act id launch :: seen) = some h' ∧
      h'.exit? = some ⟨requested, ending⟩ := by
  have hstop : (h.perform id launch .stop).supervision = some ⟨true, some ending, .watching⟩ := by
    simp [perform, hs]
  obtain ⟨seen, h', hseen, hrun, hexit⟩ := exists_exit_of_watching hstop requested
  exact ⟨seen, h', hseen, run_cons.mpr ⟨_, apply_act launch hcall, hrun⟩, hexit⟩

end Localnet.Handle
