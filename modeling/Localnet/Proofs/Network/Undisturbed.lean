import Localnet.Proofs.Network.Life
import Localnet.Proofs.Network.Rounds
import Localnet.Proofs.Network.Vigil

/-!
# A wait that nobody keeps waiting

A wait among other callers goes as it would on its own if it gets the registry at once whenever it wants
to. It keeps to the timetable of its surveys then.
-/

namespace Localnet

/-- No time passes with a move, and a wait does not give up. -/
def Move.spares (id : Nat) : Move → Bool
  | .tick _ => false
  | .expire other => other != id
  | _ => true

def Machine.Survey.sight (survey : Machine.Survey) : Except NetworkError (List (Client × Fate)) :=
  (Machine.targets survey.network.world.registry).map fun clients =>
    clients.map fun client => (client, survey.fates client)

/-- A wait sees in its rounds what the surveys see. -/
def Outlook.Sees (o : Outlook) (seen : List Machine.Survey) : Prop :=
  ∀ k survey, seen[k]? = some survey → o.sights k = survey.sight

theorem Outlook.Sees.of_append {o : Outlook} {seen later : List Machine.Survey}
    (h : o.Sees (seen ++ later)) : o.Sees seen := by
  intro k survey hsurvey
  have hlt := (List.getElem?_eq_some_iff.mp hsurvey).1
  exact h k survey ((List.getElem?_append_left hlt).trans hsurvey)

namespace Machine

variable {m m' called : Machine} {id : Nat} {move : Move} {moves : List Move} {seen : List Survey}
  {o : Outlook} {v : Vigil} {wait : Wait}

/-- A wait that is begun at a moment and makes some surveys. -/
def outlookOf (start deadline interval : Nat) (seen : List Survey) : Outlook where
  start
  deadline
  interval
  sights k :=
    match seen[k]? with
    | some survey => survey.sight
    | none => .error .stopped

theorem sees_outlookOf (start deadline interval : Nat) (seen : List Survey) :
    (outlookOf start deadline interval seen).Sees seen := by
  intro k survey hsurvey
  simp only [outlookOf, hsurvey]

def wantsLook (m : Machine) (id : Nat) : Bool :=
  match m.thread? id with
  | some (.waiting wait) => wait.needsRegistry
  | _ => false

/-- As long as a wait wants the registry, no time passes, and it does not give up. -/
def isPrompt (id : Nat) : Machine → List Move → Bool
  | _, [] => true
  | m, move :: rest =>
    (!m.wantsLook id || move.spares id) && (m.apply move).all fun m' => isPrompt id m' rest

theorem isPrompt_cons (hmove : m.apply move = some m') (rest : List Move) :
    isPrompt id m (move :: rest) ↔ (m.wantsLook id → move.spares id) ∧ isPrompt id m' rest := by
  rw [isPrompt, hmove, Option.all_some, Bool.and_eq_true]
  cases m.wantsLook id <;> simp

/-! ### The wait -/

/-- A wait that has begun its rounds is where a wait on its own is. -/
structure Abreast (o : Outlook) (id : Nat) (seen : List Survey) (phase : Wait.Phase) (m : Machine)
    (v : Vigil) : Prop where
  thread?_eq : m.thread? id = some (.waiting (o.waitIn phase))
  phase_ne : phase ≠ .entering
  count_queue_le : m.queue.count id ≤ if (o.waitIn phase).needsRegistry then 1 else 0
  progress_eq : v.progress = .phase phase
  now_eq : v.now = m.now
  length_eq : v.rounds.length = seen.length

/-- A thread is where a wait on its own is. -/
inductive Shows (o : Outlook) (id : Nat) (seen : List Survey) (m : Machine) (v : Vigil) : Prop
  | entering : m.thread? id = some (.waiting (o.waitIn .entering)) → m.now = o.start →
      m.queue.count id ≤ 1 → v = o.vigil → seen = [] → Shows o id seen m v
  /-- The network is stopped before the first round. -/
  | refused : m.thread? id = some (.ended (.error .stopped)) → o.start ≤ m.now → v = o.vigil →
      seen = [] → Shows o id seen m v
  | abreast {phase : Wait.Phase} : Abreast o id seen phase m v → Shows o id seen m v
  | ended {result : Except NetworkError Unit} :
      m.thread? id = some (.ended (result.map fun () => .done)) → v.progress = .ended result →
      v.now ≤ m.now → Shows o id seen m v

theorem wantsLook_of_thread? (hthread : m.thread? id = some (.waiting wait)) :
    m.wantsLook id = wait.needsRegistry := by
  rw [wantsLook, hthread]

theorem shows_of_entering (hthread : m.thread? id = some (.waiting (o.waitIn .entering)))
    (hnow : m.now = o.start) (hcount : m.queue.count id ≤ 1) (hmove : m.apply move = some m')
    (hprompt : m.wantsLook id → move.spares id) : Shows o id (m.surveyOf id move) m' o.vigil := by
  have hwants : m.wantsLook id := wantsLook_of_thread? hthread
  cases turn_of_apply hthread hmove with
  | rest hrest =>
      rw [surveyOf_eq_nil_of_rest hthread hrest]
      exact .entering hrest.thread?_eq (hrest.now_eq.trans hnow) (hrest.count_queue_le.trans hcount)
        rfl rfl
  | tick _ => cases hprompt hwants
  | @looked _ fates hnext =>
      have hnone : m.surveyOf id (.handOver fates) = [] := by
        rw [surveyOf_handOver hthread, if_neg (fun h => nomatch h.2)]
      rw [hnone]
      have hself := thread?_progress_self (m := { m with queue := m.queue.tail }) hthread
        (o.waitIn .entering)
      by_cases hstopped : m.world.registry.stopped
      · rw [look_of_stopped hstopped]
        exact .refused (hself _) (Nat.le_of_eq hnow.symm) rfl rfl
      · rw [look_of_running _ _ ((Bool.not_eq_true _).mp hstopped)]
        refine .abreast ⟨hself (.phase .surveying), nofun, ?_, rfl, hnow.symm, rfl⟩
        have hcount' := count_queue_of_isNext hnext
        dsimp only [Outlook.waitIn]
        rw [count_queue_progress_self]
        change m.queue.tail.count id + 1 ≤ 1
        omega
  | advanced hadvance => cases hadvance
  | expired hoverdue _ => cases hoverdue

namespace Abreast

variable {phase : Wait.Phase}

theorem phase_eq_of_isNext (h : Abreast o id seen phase m v) (hnext : m.isNext id) :
    phase = .surveying := by
  have hcount := count_queue_of_isNext hnext
  have hle := h.count_queue_le
  cases phase with
  | entering => exact absurd rfl h.phase_ne
  | surveying => rfl
  | checking checks =>
      -- it is not in the queue at all
      change m.queue.count id ≤ 0 at hle
      omega
  | pausing till =>
      change m.queue.count id ≤ 0 at hle
      omega

theorem looked {fates : Client → Fate} (h : Abreast o id seen phase m v) (hnext : m.isNext id)
    (hsees : o.Sees (seen ++ m.surveyOf id (.handOver fates))) :
    ∃ v', o.apply v .look = some v' ∧ Shows o id (seen ++ m.surveyOf id (.handOver fates))
      ({ m with queue := m.queue.tail }.progress id (o.waitIn phase)
        ((o.waitIn phase).look m.now fates (targets m.world.registry))) v' := by
  obtain rfl := h.phase_eq_of_isNext hnext
  obtain ⟨hthread, -, hcount, hprogress, hnow, hlength⟩ := h
  have hself := thread?_progress_self (m := { m with queue := m.queue.tail }) hthread
    (o.waitIn .surveying)
  have htime : ∀ progress, (Machine.progress { m with queue := m.queue.tail } id
      (o.waitIn .surveying) progress).now = m.now := now_progress _ _ _
  rw [surveyOf_handOver hthread, if_pos ⟨hnext, rfl⟩] at hsees ⊢
  have hsight := hsees seen.length ⟨m, fates⟩ List.getElem?_concat_length
  obtain ⟨now, progress, rounds⟩ := v
  obtain rfl : progress = .phase .surveying := hprogress
  obtain rfl : now = m.now := hnow
  have hlook : (o.waitIn .surveying).look m.now fates (targets m.world.registry) =
      (o.waitIn .surveying).see m.now (o.sights rounds.length) := by
    rw [hlength, hsight]
    rfl
  refine ⟨_, rfl, ?_⟩
  rw [hlook]
  unfold Vigil.look
  cases o.sights rounds.length with
  | error e => exact .ended (hself _) rfl (Nat.le_of_eq (htime _).symm)
  | ok targets =>
      refine .abreast ⟨hself _, nofun, ?_, rfl, (htime _).symm, ?_⟩
      · -- with its look the wait was taken off the queue
        have hcount' := count_queue_of_isNext hnext
        change m.queue.count id ≤ 1 at hcount
        rw [Wait.see]
        change (Machine.progress _ id _ (.phase (.checking _))).queue.count id ≤ 0
        rw [count_queue_progress_self]
        change m.queue.tail.count id + 0 ≤ 0
        omega
      · simpa [Wait.see, Outlook.waitIn, Vigil.roundBegun] using hlength

theorem advanced {progress : Wait.Progress} (h : Abreast o id seen phase m v)
    (hadvance : (o.waitIn phase).advance? m.now = some progress) :
    ∃ v', o.apply v .advance = some v' ∧
      Shows o id seen (m.progress id (o.waitIn phase) progress) v' := by
  obtain ⟨hthread, hne, hcount, hprogress, hnow, hlength⟩ := h
  obtain ⟨now, progress', rounds⟩ := v
  obtain rfl : progress' = .phase phase := hprogress
  obtain rfl : now = m.now := hnow
  have hself := thread?_progress_self hthread (o.waitIn phase) progress
  refine ⟨⟨m.now, progress, rounds⟩, by simp [Outlook.apply, hadvance], ?_⟩
  cases progress with
  | ended result => exact .ended hself rfl (Nat.le_of_eq (now_progress _ _ _ _).symm)
  | phase next =>
      have hnext : next ≠ .entering := fun heq =>
        Wait.advance?_ne_entering hadvance (congrArg Wait.Progress.phase heq)
      refine .abreast ⟨hself, hnext, ?_, rfl, (now_progress _ _ _ _).symm, hlength⟩
      rw [Wait.needsRegistry_of_advance? hadvance, if_neg Bool.false_ne_true] at hcount
      rw [count_queue_progress_self]
      change _ + (if (o.waitIn next).needsRegistry then 1 else 0) ≤ _
      omega

/-- What a wait among others does, it does on its own. -/
theorem apply (h : Abreast o id seen phase m v) (hmove : m.apply move = some m')
    (hprompt : m.wantsLook id → move.spares id) (hsees : o.Sees (seen ++ m.surveyOf id move)) :
    ∃ moves v', o.run v moves = some v' ∧ Shows o id (seen ++ m.surveyOf id move) m' v' := by
  rw [wantsLook_of_thread? h.thread?_eq] at hprompt
  cases turn_of_apply h.thread?_eq hmove with
  | rest hrest =>
      rw [surveyOf_eq_nil_of_rest h.thread?_eq hrest, List.append_nil]
      refine ⟨[], v, rfl, .abreast ⟨hrest.thread?_eq, h.phase_ne, ?_, h.progress_eq, ?_, h.length_eq⟩⟩
      · exact hrest.count_queue_le.trans h.count_queue_le
      · exact h.now_eq.trans hrest.now_eq.symm
  | looked hnext =>
      obtain ⟨v', hlook, hshows⟩ := h.looked hnext hsees
      exact ⟨[.look], v', Option.bind_eq_some_iff.mpr ⟨v', hlook, rfl⟩, hshows⟩
  | advanced hadvance =>
      obtain ⟨v', hadvance', hshows⟩ := h.advanced hadvance
      refine ⟨[.advance], v', Option.bind_eq_some_iff.mpr ⟨v', hadvance', rfl⟩, ?_⟩
      change Shows o id (seen ++ []) _ _
      rwa [List.append_nil]
  | @tick _ duration hidle =>
      have hregistry : ¬ (o.waitIn phase).needsRegistry := fun h => nomatch hprompt h
      obtain ⟨hthread, hne, hcount, hprogress, hnow, hlength⟩ := h
      obtain ⟨now, progress, rounds⟩ := v
      obtain rfl : progress = .phase phase := hprogress
      obtain rfl : now = m.now := hnow
      have htick : o.apply ⟨m.now, .phase phase, rounds⟩ (.tick duration) =
          some ⟨m.now + duration, .phase phase, rounds⟩ := if_pos ⟨hregistry, hidle⟩
      refine ⟨[.tick duration], _, Option.bind_eq_some_iff.mpr ⟨_, htick, rfl⟩, ?_⟩
      change Shows o id (seen ++ []) _ _
      rw [List.append_nil]
      exact .abreast ⟨hthread, hne, hcount, rfl, rfl, hlength⟩
  | expired hoverdue hstuck =>
      have hregistry : ¬ (o.waitIn phase).needsRegistry := by simpa [Move.spares] using hprompt
      obtain ⟨hthread, -, -, hprogress, hnow, -⟩ := h
      obtain ⟨now, progress, rounds⟩ := v
      obtain rfl : progress = .phase phase := hprogress
      obtain rfl : now = m.now := hnow
      have hexpire : o.apply ⟨m.now, .phase phase, rounds⟩ .expire =
          some ⟨m.now, .ended (.error .healthTimeout), rounds⟩ :=
        if_pos ⟨hoverdue, by simp [hstuck], hregistry⟩
      refine ⟨[.expire], _, Option.bind_eq_some_iff.mpr ⟨_, hexpire, rfl⟩, ?_⟩
      exact .ended (thread?_put_self hthread _) rfl (Nat.le_refl _)

end Abreast

theorem Shows.apply (h : Shows o id seen m v) (hmove : m.apply move = some m')
    (hprompt : m.wantsLook id → move.spares id) (hsees : o.Sees (seen ++ m.surveyOf id move)) :
    ∃ moves v', o.run v moves = some v' ∧ Shows o id (seen ++ m.surveyOf id move) m' v' := by
  cases h with
  | entering hthread hnow hcount hv hseen =>
      subst hv hseen
      exact ⟨[], _, rfl, shows_of_entering hthread hnow hcount hmove hprompt⟩
  | refused hthread hle hv hseen =>
      obtain ⟨hthread', hnow⟩ := ended_of_apply hthread hmove
      rw [surveyOf_eq_nil_of_thread? hthread nofun, List.append_nil]
      exact ⟨[], v, rfl, .refused hthread' (hle.trans hnow) hv hseen⟩
  | abreast habreast => exact habreast.apply hmove hprompt hsees
  | ended hthread hprogress hle =>
      obtain ⟨hthread', hnow⟩ := ended_of_apply hthread hmove
      rw [surveyOf_eq_nil_of_thread? hthread nofun, List.append_nil]
      exact ⟨[], v, rfl, .ended hthread' hprogress (hle.trans hnow)⟩

/-- A wait that is about to begin a round shows a wait on its own that is. -/
theorem Shows.abreast_of_surveying (h : Shows o id seen m v)
    (hthread : m.thread? id = some (.waiting wait)) (hphase : wait.phase = .surveying) :
    Abreast o id seen .surveying m v := by
  cases h with
  | entering hthread' _ _ _ _ =>
      cases hthread.symm.trans hthread'
      cases hphase
  | refused hthread' _ _ _ => cases hthread.symm.trans hthread'
  | @abreast phase habreast =>
      cases hthread.symm.trans habreast.thread?_eq
      obtain rfl : phase = .surveying := hphase
      exact habreast
  | ended hthread' _ _ => cases hthread.symm.trans hthread'

/-- A wait among others is on the timetable of a wait on its own. -/
structure Accords (o : Outlook) (id : Nat) (seen : List Survey) (m : Machine) (v : Vigil) : Prop where
  onTime : o.OnTime v
  shows : Shows o id seen m v
  begins : ∀ k survey, seen[k]? = some survey → o.Begins k survey.network.now

theorem Accords.apply (h : Accords o id seen m v) (hmove : m.apply move = some m')
    (hprompt : m.wantsLook id → move.spares id) (hsees : o.Sees (seen ++ m.surveyOf id move)) :
    ∃ v', Accords o id (seen ++ m.surveyOf id move) m' v' := by
  obtain ⟨moves, v', hrun, hshows⟩ := h.shows.apply hmove hprompt hsees
  refine ⟨v', h.onTime.run hrun, hshows, fun k survey hsurvey => ?_⟩
  rcases Nat.lt_or_ge k seen.length with hlt | hge
  · rw [List.getElem?_append_left hlt] at hsurvey
    exact h.begins k survey hsurvey
  · rw [List.getElem?_append_right hge] at hsurvey
    obtain ⟨rfl, -, -, wait, hthread, hphase⟩ := of_mem_surveyOf (List.mem_of_getElem? hsurvey)
    have hlt := (List.getElem?_eq_some_iff.mp hsurvey).1
    have hone := length_surveyOf_le id survey.network move
    obtain rfl : k = seen.length := by omega
    -- the survey is made when the next round is due
    have habreast := h.shows.abreast_of_surveying hthread hphase
    have hstage := h.onTime.stage
    rw [habreast.progress_eq, habreast.now_eq, habreast.length_eq] at hstage
    exact (hstage.of_needsRegistry rfl).2.2.1

theorem Accords.run (h : Accords o id seen m v) (hrun : m.run moves = some m')
    (hprompt : isPrompt id m moves) (hsees : o.Sees (seen ++ surveys id m moves)) :
    ∃ v', Accords o id (seen ++ surveys id m moves) m' v' := by
  induction moves generalizing m seen v with
  | nil =>
      obtain rfl := Option.some.inj hrun
      rw [surveys, List.append_nil]
      exact ⟨v, h⟩
  | cons move rest ih =>
      obtain ⟨next, hmove, hrest⟩ := run_cons.mp hrun
      rw [surveys_cons hmove, ← List.append_assoc] at hsees ⊢
      obtain ⟨hspares, hprompt'⟩ := (isPrompt_cons hmove rest).mp hprompt
      -- of the surveys only those up to this move count now
      obtain ⟨v₁, hnext⟩ := h.apply hmove hspares hsees.of_append
      exact ih hnext hrest hprompt' hsees

/-! ### The timetable -/

/-- A wait is begun in a network, it gets the registry whenever it wants it, and an outlook sees what it
sees. -/
structure Undisturbed (o : Outlook) (called : Machine) (moves : List Move) (m : Machine) : Prop where
  reached : ∃ network interval now w before, (start network interval now w).run before = some called
  now_eq : called.now = o.start
  interval_eq : called.interval = o.interval
  run_eq : called.run (.wait o.deadline :: moves) = some m
  prompt : isPrompt called.threads.length called (.wait o.deadline :: moves)
  sees : o.Sees (surveys called.threads.length called (.wait o.deadline :: moves))

/-- What holds of a wait among others that keeps to a timetable. -/
structure KeepsTo (o : Outlook) (id : Nat) (seen : List Survey) (m : Machine) : Prop where
  begins : ∀ k survey, seen[k]? = some survey → o.Begins k survey.network.now
  /-- It has come to what it has to, unless the network was stopped before its first round. -/
  ended : ∀ result, m.result? id = some result → (result = .error .stopped ∧ seen = []) ∨
    ∃ (outcome : Except NetworkError Unit) (t : Nat), result = outcome.map (fun () => .done) ∧
      t ≤ m.now ∧ o.ComesTo outcome t
  /-- It is not late. -/
  pending : m.result? id = none → ∀ outcome t, o.ComesTo outcome t → m.now ≤ t

theorem Accords.keepsTo (h : Accords o id seen m v) (hinterval : 0 < o.interval) :
    KeepsTo o id seen m := by
  refine ⟨h.begins, fun result hresult => ?_, fun hpending outcome t hcomes => ?_⟩
  · rw [result?_eq_some_iff] at hresult
    cases h.shows with
    | entering hthread _ _ _ _ => cases hresult.symm.trans hthread
    | refused hthread _ _ hseen =>
        cases hresult.symm.trans hthread
        exact .inl ⟨rfl, hseen⟩
    | abreast habreast => cases hresult.symm.trans habreast.thread?_eq
    | ended hthread hended hle =>
        cases hresult.symm.trans hthread
        exact .inr ⟨_, v.now, rfl, hle, h.onTime.stage.comesTo hended⟩
  · have hle : v.now ≤ t := h.onTime.le_of_comesTo hinterval hcomes
    cases h.shows with
    | entering _ hnow _ hv _ =>
        rw [hv] at hle
        exact hnow ▸ hle
    | refused hthread _ _ _ => cases hpending.symm.trans (result?_eq_some_iff.mpr hthread)
    | abreast habreast => exact habreast.now_eq ▸ hle
    | ended hthread _ _ => cases hpending.symm.trans (result?_eq_some_iff.mpr hthread)

theorem Undisturbed.keepsTo (h : Undisturbed o called moves m) (hinterval : 0 < o.interval) :
    KeepsTo o called.threads.length (surveys called.threads.length called (.wait o.deadline :: moves))
      m := by
  obtain ⟨⟨network, interval, now, w, before, hbefore⟩, hnow, hinterval', hrun, hprompt, hsees⟩ := h
  obtain ⟨next, hwait, hrest⟩ := run_cons.mp hrun
  obtain ⟨-, hprompt'⟩ := (isPrompt_cons hwait moves).mp hprompt
  have hnone : called.surveyOf called.threads.length (.wait o.deadline) = [] := rfl
  rw [surveys_cons hwait, hnone, List.nil_append] at hsees ⊢
  obtain rfl := Option.some.inj hwait
  have hshows : Shows o called.threads.length []
      (called.spawn (.waiting (.start o.deadline called.interval))) o.vigil := by
    refine .entering ?_ hnow ?_ rfl rfl
    · rw [hinterval']
      exact thread?_spawn_self _
    · have hnot : called.threads.length ∉ called.queue := fun hmem =>
        Nat.lt_irrefl _ ((enlisted_start network interval now w).run hbefore _ hmem)
      rw [spawn, List.count_append, List.count_eq_zero.mpr hnot, List.count_singleton_self]
  have hstart : Accords o called.threads.length []
      (called.spawn (.waiting (.start o.deadline called.interval))) o.vigil := by
    refine ⟨Outlook.onTime_vigil o, hshows, ?_⟩
    intro k survey hsurvey
    cases hsurvey
  obtain ⟨v, haccords⟩ := hstart.run hrest hprompt' hsees
  exact haccords.keepsTo hinterval

end Machine

namespace Outlook

/-- A wait comes to what its timetable says at the moment that it says, and to nothing else, and its
rounds follow each other without an overlap. So does a wait among other callers that nobody keeps
waiting. -/
theorem wait_keeps_timetable (o : Outlook) (hinterval : 0 < o.interval) :
    (∀ result t, o.Returns result t ↔ o.ComesTo result t) ∧
      (∀ moves v, o.run o.vigil moves = some v → o.Orderly v) ∧
      ∀ called moves m, Machine.Undisturbed o called moves m →
        Machine.KeepsTo o called.threads.length
          (Machine.surveys called.threads.length called (.wait o.deadline :: moves)) m := by
  refine ⟨fun result t => returns_iff_comesTo hinterval, fun moves v hrun => ?_,
    fun called moves m h => h.keepsTo hinterval⟩
  exact ((onTime_vigil o).run hrun).orderly hinterval

/-- One check that fails, and then one that is answered well just at the deadline. -/
def lastMinute : Outlook where
  start := 0
  deadline := 30
  interval := 10
  sights
    | 0 => .ok [(⟨"a", 2⟩, ⟨some 5, .error ⟨"a is not answering", []⟩⟩)]
    | _ => .ok [(⟨"a", 2⟩, ⟨some 15, .ok true⟩)]

/-- The same in a network of one node. -/
def lastMinuteMoves : List Move :=
  [.handOver fun _ => ⟨none, .ok false⟩,
    .handOver fun _ => ⟨some 5, .error ⟨"a is not answering", []⟩⟩, .tick 5, .advance 0, .tick 10,
    .advance 0, .handOver fun _ => ⟨some 15, .ok true⟩, .tick 15, .advance 0]

def lastMinuteIn (s : Machine) : Outlook :=
  Machine.outlookOf 0 30 10 (Machine.surveys 0 s (.wait 30 :: lastMinuteMoves))

theorem lastMinute_comesTo_ok : 0 < lastMinute.interval ∧ lastMinute.ComesTo (.ok ()) 30 ∧
    ∃ (network : Network) (w : World) (s m : Machine),
      World.run willingHost (Network.create soloConfig).run .blank = (.ok network, w) ∧
      s = Machine.start network 10 0 w ∧
      Machine.Undisturbed (lastMinuteIn s) s lastMinuteMoves m ∧
      (∃ answer, m.result? 0 = some (.ok answer)) ∧ m.now = 30 ∧
      Machine.KeepsTo (lastMinuteIn s) 0 (Machine.surveys 0 s (.wait 30 :: lastMinuteMoves)) m := by
  refine ⟨by decide, ((wait_keeps_timetable lastMinute (by decide)).1 _ _).mp ?_, ?_⟩
  · exact ⟨[.look, .tick 5, .advance, .tick 10, .advance, .look, .tick 15, .advance], _, rfl, rfl, rfl⟩
  have hends :
      (match World.run willingHost (Network.create soloConfig).run .blank with
        | (.ok network, w) =>
          Machine.isPrompt 0 (Machine.start network 10 0 w) (.wait 30 :: lastMinuteMoves) &&
            ((Machine.start network 10 0 w).run (.wait 30 :: lastMinuteMoves)).any
              fun m => m.now == 30 && (m.result? 0).any (·.isOk)
        | (.error _, _) => false) = true := by
    decide +kernel
  split at hends
  next network w hcreate =>
    obtain ⟨hprompt, hends⟩ := Bool.and_eq_true_iff.mp hends
    obtain ⟨m, hrun, hm⟩ := (Option.any_eq_true _ _).mp hends
    obtain ⟨hnow, hresult⟩ := Bool.and_eq_true_iff.mp hm
    obtain ⟨result, hresult, hok⟩ := (Option.any_eq_true _ _).mp hresult
    have hundisturbed : Machine.Undisturbed (lastMinuteIn (Machine.start network 10 0 w))
        (Machine.start network 10 0 w) lastMinuteMoves m :=
      ⟨⟨network, 10, 0, w, [], rfl⟩, rfl, rfl, hrun, hprompt, Machine.sees_outlookOf _ _ _ _⟩
    have hinterval : 0 < (lastMinuteIn (Machine.start network 10 0 w)).interval :=
      Nat.zero_lt_succ 9
    have hkeeps := (wait_keeps_timetable _ hinterval).2.2 _ _ _ hundisturbed
    refine ⟨network, w, _, m, hcreate, rfl, hundisturbed, ?_, eq_of_beq hnow, hkeeps⟩
    cases result with
    | ok answer => exact ⟨answer, hresult⟩
    | error e => cases hok
  next => cases hends

end Outlook

end Localnet
