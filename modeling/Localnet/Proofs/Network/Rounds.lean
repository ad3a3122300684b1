import Localnet.Proofs.Network.Checks
import Localnet.Proofs.Network.Returned

/-!
# The rounds of a wait

A wait for health among other callers begins its rounds with surveys of the network, each at a moment of
its own. What the wait comes to is decided by the last of them alone.
-/

namespace Localnet.Machine

/-- A look at a network that is to begin a round, and how the checks go that would begin then. -/
structure Survey where
  network : Machine
  fates : Client → Fate

namespace Survey

def isStopped (survey : Survey) : Bool := survey.network.world.registry.stopped

def nodes (survey : Survey) : List Node := survey.network.world.registry.nodes.values

def checks (survey : Survey) : List Check :=
  survey.nodes.map fun node =>
    Check.ofFate survey.network.now node.client (survey.fates node.client)

end Survey

variable {m m' : Machine} {id : Nat} {move : Move} {moves before after : List Move}
  {seen : List Survey} {survey : Survey} {wait : Wait} {fates : Client → Fate}

def surveyOf (id : Nat) (m : Machine) : Move → List Survey
  | .handOver fates =>
    match m.thread? id with
    | some (.waiting wait) => if m.isNext id ∧ wait.surveys then [⟨m, fates⟩] else []
    | _ => []
  | _ => []

/-- The surveys of a wait in the course of some moves, in their order. -/
def surveys (id : Nat) : Machine → List Move → List Survey
  | _, [] => []
  | m, move :: rest =>
    m.surveyOf id move ++
      match m.apply move with
      | some m' => surveys id m' rest
      | none => []

theorem surveys_cons (hmove : m.apply move = some m') (rest : List Move) :
    surveys id m (move :: rest) = m.surveyOf id move ++ surveys id m' rest := by
  rw [surveys, hmove]

theorem surveys_append (hrun : m.run before = some m') (after : List Move) :
    surveys id m (before ++ after) = surveys id m before ++ surveys id m' after := by
  induction before generalizing m with
  | nil =>
      obtain rfl := Option.some.inj hrun
      rfl
  | cons move rest ih =>
      obtain ⟨next, hmove, hrest⟩ := run_cons.mp hrun
      rw [List.cons_append, surveys_cons hmove, surveys_cons hmove, ih hrest, List.append_assoc]

theorem length_surveyOf_le (id : Nat) (m : Machine) (move : Move) :
    (m.surveyOf id move).length ≤ 1 := by
  unfold surveyOf
  split
  next =>
    split
    next => split <;> simp
    next => exact Nat.zero_le 1
  next => exact Nat.zero_le 1

theorem surveyOf_eq_nil_of_thread? {thread : Thread} (hthread : m.thread? id = some thread)
    (hnot : ∀ wait, thread ≠ .waiting wait) : m.surveyOf id move = [] := by
  unfold surveyOf
  split
  next =>
    rw [hthread]
    split
    next wait heq => exact absurd (Option.some.inj heq) (hnot wait)
    next => rfl
  next => rfl

theorem surveyOf_handOver (hthread : m.thread? id = some (.waiting wait)) :
    m.surveyOf id (.handOver fates) = if m.isNext id ∧ wait.surveys then [⟨m, fates⟩] else [] := by
  rw [surveyOf, hthread]

theorem surveyOf_eq_nil_of_rest (hthread : m.thread? id = some (.waiting wait))
    (hrest : m.Rests id (.waiting wait) move m') : m.surveyOf id move = [] := by
  cases move with
  | handOver fates =>
      rw [surveyOf_handOver hthread, if_neg]
      rintro ⟨hnext, -⟩
      obtain ⟨result, heq⟩ := hrest.ended_of_isNext fates rfl hnext
      cases heq
  | _ => rfl

theorem of_mem_surveyOf (h : survey ∈ m.surveyOf id move) :
    survey.network = m ∧ move = .handOver survey.fates ∧ m.isNext id ∧
      ∃ wait, m.thread? id = some (.waiting wait) ∧ wait.phase = .surveying := by
  unfold surveyOf at h
  split at h
  next fates =>
    split at h
    next wait hthread =>
      split at h
      next hcond =>
        obtain rfl := List.mem_singleton.mp h
        refine ⟨rfl, rfl, hcond.1, wait, hthread, ?_⟩
        have hsurveys := hcond.2
        unfold Wait.surveys at hsurveys
        split at hsurveys
        next hphase => exact hphase
        all_goals cases hsurveys
      next => cases h
    next => cases h
  next => cases h

theorem exists_run_of_mem_surveys (hrun : m.run moves = some m') (h : survey ∈ surveys id m moves) :
    ∃ before after, moves = before ++ .handOver survey.fates :: after ∧
      m.run before = some survey.network ∧ survey ∈ survey.network.surveyOf id (.handOver survey.fates) := by
  induction moves generalizing m with
  | nil => cases h
  | cons move rest ih =>
      obtain ⟨next, hmove, hrest⟩ := run_cons.mp hrun
      rw [surveys_cons hmove, List.mem_append] at h
      rcases h with h | h
      · obtain ⟨rfl, rfl, -⟩ := of_mem_surveyOf h
        exact ⟨[], rest, rfl, rfl, h⟩
      · obtain ⟨before, after, rfl, hbefore, hmem⟩ := ih hrest h
        exact ⟨move :: before, after, rfl, run_cons.mpr ⟨next, hmove, hbefore⟩, hmem⟩

/-! ### What a wait comes to -/

/-- Where a wait is by the surveys that it has made. -/
inductive Attends (id : Nat) (seen : List Survey) (m : Machine) : Prop
  | between {wait : Wait} : m.thread? id = some (.waiting wait) →
      (∀ checks, wait.phase ≠ .checking checks) → Attends id seen m
  | checking {wait : Wait} {survey : Survey} : m.thread? id = some (.waiting wait) →
      wait.phase = .checking survey.checks → seen.getLast? = some survey →
      survey.isStopped = false → Attends id seen m
  | healthy {survey : Survey} : m.thread? id = some (.ended (.ok .done)) →
      seen.getLast? = some survey → survey.isStopped = false →
      survey.checks.all (·.isAnswered m.now) → survey.checks.all (·.healthy) → Attends id seen m
  | failed {e : NetworkError} : m.thread? id = some (.ended (.error e)) →
      e = .stopped ∨ e = .healthTimeout → Attends id seen m

theorem look_of_stopped (hstopped : m.world.registry.stopped) :
    wait.look m.now fates (targets m.world.registry) = .ended (.error .stopped) := by
  rw [targets, if_pos hstopped]
  rfl

/-- A wait that sees a network which is not stopped goes on, and checks all its nodes if it is time to. -/
theorem look_of_running (wait : Wait) (fates : Client → Fate)
    (hrunning : m.world.registry.stopped = false) :
    wait.look m.now fates (targets m.world.registry) = .phase (
      match wait.phase with
      | .entering => .surveying
      | .surveying => .checking (Survey.checks ⟨m, fates⟩)
      | phase => phase) := by
  rw [targets, if_neg (by simp [hrunning]), Wait.look, Except.map, Wait.see]
  cases wait.phase with
  | surveying => simp [Wait.round, Survey.checks, Survey.nodes]
  | _ => rfl

theorem Attends.of_checking {checks : List Check} (h : m.Attends id seen)
    (hthread : m.thread? id = some (.waiting wait)) (hphase : wait.phase = .checking checks) :
    ∃ survey, seen.getLast? = some survey ∧ survey.isStopped = false ∧ checks = survey.checks := by
  cases h with
  | between hthread' hnot =>
      cases hthread.symm.trans hthread'
      exact absurd hphase (hnot checks)
  | checking hthread' hphase' hlast hrunning =>
      cases hthread.symm.trans hthread'
      cases hphase.symm.trans hphase'
      exact ⟨_, hlast, hrunning, rfl⟩
  | healthy hthread' _ _ _ _ => cases hthread.symm.trans hthread'
  | failed hthread' _ => cases hthread.symm.trans hthread'

theorem Attends.looked (h : m.Attends id seen) (hthread : m.thread? id = some (.waiting wait))
    (hnext : m.isNext id) :
    Attends id (seen ++ m.surveyOf id (.handOver fates))
      ({ m with queue := m.queue.tail }.progress id wait
        (wait.look m.now fates (targets m.world.registry))) := by
  have hself := thread?_progress_self (m := { m with queue := m.queue.tail }) hthread wait
  by_cases hstopped : m.world.registry.stopped
  · rw [look_of_stopped hstopped]
    exact .failed (hself _) (.inl rfl)
  rw [look_of_running _ _ (by simpa using hstopped), surveyOf_handOver hthread]
  cases hphase : wait.phase with
  | entering => exact .between (hself _) nofun
  | surveying =>
      rw [if_pos ⟨hnext, by rw [Wait.surveys, hphase]⟩]
      exact .checking (hself _) rfl List.getLast?_concat ((Bool.not_eq_true _).mp hstopped)
  | checking checks =>
      -- a wait that checks is not changed by a look
      rw [if_neg (by simp [Wait.surveys, hphase]), List.append_nil]
      obtain ⟨survey, hlast, hrunning, rfl⟩ := h.of_checking hthread hphase
      exact .checking (hself _) rfl hlast hrunning
  | pausing till => exact .between (hself _) nofun

theorem Attends.advanced {progress : Wait.Progress} (h : m.Attends id seen)
    (hthread : m.thread? id = some (.waiting wait)) (hadvance : wait.advance? m.now = some progress) :
    (m.progress id wait progress).Attends id seen := by
  have hself := thread?_progress_self hthread wait progress
  unfold Wait.advance? at hadvance
  split at hadvance
  next => cases hadvance
  next => cases hadvance
  next checks hphase =>
    split at hadvance
    next hanswered =>
      split at hadvance
      next hhealthy =>
        cases hadvance
        obtain ⟨survey, hlast, hrunning, rfl⟩ := h.of_checking hthread hphase
        refine .healthy hself hlast hrunning ?_ hhealthy
        rwa [now_progress]
      next =>
        cases hadvance
        exact .between hself nofun
    next => cases hadvance
  next =>
    split at hadvance
    next =>
      cases hadvance
      exact .between hself nofun
    next => cases hadvance

theorem Attends.ended_apply {result : Except NetworkError Answer} (h : m.Attends id seen)
    (hthread : m.thread? id = some (.ended result)) (hthread' : m'.thread? id = some (.ended result))
    (hle : m.now ≤ m'.now) : m'.Attends id seen := by
  cases h with
  | between hwaiting _ => cases hthread.symm.trans hwaiting
  | checking hwaiting _ _ _ => cases hthread.symm.trans hwaiting
  | healthy hended hlast hrunning hanswered hhealthy =>
      cases hthread.symm.trans hended
      refine .healthy hthread' hlast hrunning ?_ hhealthy
      rw [List.all_eq_true] at hanswered ⊢
      exact fun check hcheck => Check.isAnswered_mono (hanswered check hcheck) hle
  | failed hended he =>
      cases hthread.symm.trans hended
      exact .failed hthread' he

theorem Attends.waiting_apply (h : m.Attends id seen) (hthread : m.thread? id = some (.waiting wait))
    (hthread' : m'.thread? id = some (.waiting wait)) : m'.Attends id seen := by
  cases hphase : wait.phase with
  | checking checks =>
      obtain ⟨survey, hlast, hrunning, rfl⟩ := h.of_checking hthread hphase
      exact .checking hthread' hphase hlast hrunning
  | _ => exact .between hthread' (by simp [hphase])

theorem Attends.exists_thread (h : m.Attends id seen) :
    (∃ wait, m.thread? id = some (.waiting wait)) ∨ ∃ result, m.thread? id = some (.ended result) := by
  cases h with
  | between hthread _ => exact .inl ⟨_, hthread⟩
  | checking hthread _ _ _ => exact .inl ⟨_, hthread⟩
  | healthy hthread _ _ _ _ => exact .inr ⟨_, hthread⟩
  | failed hthread _ => exact .inr ⟨_, hthread⟩

theorem Attends.apply (h : m.Attends id seen) (hmove : m.apply move = some m') :
    m'.Attends id (seen ++ m.surveyOf id move) := by
  rcases h.exists_thread with ⟨wait, hthread⟩ | ⟨result, hthread⟩
  · cases turn_of_apply hthread hmove with
    | rest hrest =>
        rw [surveyOf_eq_nil_of_rest hthread hrest, List.append_nil]
        exact h.waiting_apply hthread hrest.thread?_eq
    | tick _ =>
        change Attends id (seen ++ []) _
        rw [List.append_nil]
        exact h.waiting_apply hthread hthread
    | looked hnext => exact h.looked hthread hnext
    | advanced hadvance =>
        change Attends id (seen ++ []) _
        rw [List.append_nil]
        exact h.advanced hthread hadvance
    | expired _ _ => exact .failed (thread?_put_self hthread _) (.inr rfl)
  · rw [surveyOf_eq_nil_of_thread? hthread nofun, List.append_nil]
    obtain ⟨hthread', hnow⟩ := ended_of_apply hthread hmove
    exact h.ended_apply hthread hthread' hnow

theorem Attends.run (h : m.Attends id seen) (hrun : m.run moves = some m') :
    m'.Attends id (seen ++ surveys id m moves) := by
  induction moves generalizing m seen with
  | nil =>
      obtain rfl := Option.some.inj hrun
      rw [surveys, List.append_nil]
      exact h
  | cons move rest ih =>
      obtain ⟨next, hmove, hrest⟩ := run_cons.mp hrun
      -- the surveys so far go with the network through the induction
      rw [surveys_cons hmove, ← List.append_assoc]
      exact ih (h.apply hmove) hrest

/-- A wait for health that is begun in the course of some moves. -/
def Waits (s : Machine) (moves : List Move) (id : Nat) : Prop :=
  ∃ before deadline after called, moves = before ++ .wait deadline :: after ∧
    s.run before = some called ∧ id = called.threads.length

theorem Waits.attends {s : Machine} (h : s.Waits moves id) (hrun : s.run moves = some m) :
    m.Attends id (surveys id s moves) := by
  obtain ⟨before, deadline, after, called, rfl, hbefore, rfl⟩ := h
  obtain ⟨called', hbefore', hrest⟩ := run_append.mp hrun
  cases hbefore.symm.trans hbefore'
  obtain ⟨next, hmove, hafter⟩ := run_cons.mp hrest
  have hstart : next.Attends called.threads.length (surveys called.threads.length s before) := by
    cases hmove
    exact .between (thread?_spawn_self _) nofun
  have hrun' := hstart.run hafter
  have hnone : called.surveyOf called.threads.length (.wait deadline) = [] := rfl
  rwa [surveys_append hbefore, surveys_cons hmove, hnone, List.nil_append]

theorem Attends.results {seen : List Survey} (h : m.Attends id seen)
    {result : Except NetworkError Answer} (hresult : m.result? id = some result) :
    result = .ok .done ∨ result = .error .stopped ∨ result = .error .healthTimeout := by
  rw [result?_eq_some_iff] at hresult
  cases h with
  | between hthread _ => cases hresult.symm.trans hthread
  | checking hthread _ _ _ => cases hresult.symm.trans hthread
  | healthy hthread _ _ _ _ =>
      cases hresult.symm.trans hthread
      exact .inl rfl
  | failed hthread he =>
      cases hresult.symm.trans hthread
      rcases he with rfl | rfl
      · exact .inr (.inl rfl)
      · exact .inr (.inr rfl)

theorem Attends.last_healthy {seen : List Survey} {answer : Answer} (h : m.Attends id seen)
    (hresult : m.result? id = some (.ok answer)) :
    ∃ survey, seen.getLast? = some survey ∧ survey.isStopped = false ∧
      ∀ check ∈ survey.checks, check.answer = .ok true ∧ check.isAnswered m.now := by
  rw [result?_eq_some_iff] at hresult
  cases h with
  | between hthread _ => cases hresult.symm.trans hthread
  | checking hthread _ _ _ => cases hresult.symm.trans hthread
  | healthy hthread hlast hrunning hanswered hhealthy =>
      refine ⟨_, hlast, hrunning, fun check hcheck => ⟨?_, List.all_eq_true.mp hanswered check hcheck⟩⟩
      exact Check.healthy_iff.mp (List.all_eq_true.mp hhealthy check hcheck)
  | failed hthread _ => cases hresult.symm.trans hthread

/-- A round checks every node that is registered as it begins, and there is none when the network is
stopped. -/
theorem begun_of_mem_surveyOf (hsurvey : survey ∈ m.surveyOf id (.handOver fates))
    (hmove : m.apply (.handOver fates) = some m') :
    if survey.isStopped then m'.result? id = some (.error .stopped)
    else ∃ wait, m'.thread? id = some (.waiting wait) ∧ wait.phase = .checking survey.checks := by
  obtain ⟨rfl, hfates, hnext, wait, hthread, hphase⟩ := of_mem_surveyOf hsurvey
  cases hfates
  cases turn_of_apply hthread hmove with
  | rest hrest =>
      obtain ⟨result, heq⟩ := hrest.ended_of_isNext _ rfl hnext
      cases heq
  | looked _ =>
      have hself := thread?_progress_self
        (m := { survey.network with queue := survey.network.queue.tail }) hthread wait
      split
      next hstopped =>
        rw [look_of_stopped hstopped, result?_eq_some_iff]
        exact hself _
      next hrunning =>
        have hlook := look_of_running wait survey.fates ((Bool.not_eq_true _).mp hrunning)
        rw [hphase] at hlook
        rw [hlook]
        exact ⟨_, hself _, rfl⟩

theorem surveys_eq_nil (hrun : m.run moves = some m') (hle : m'.threads.length ≤ id) :
    surveys id m moves = [] := by
  refine List.eq_nil_iff_forall_not_mem.mpr fun survey hsurvey => ?_
  obtain ⟨before, after, rfl, hbefore, hmem⟩ := exists_run_of_mem_surveys hrun hsurvey
  obtain ⟨next, hbefore', hafter⟩ := run_append.mp hrun
  cases hbefore.symm.trans hbefore'
  obtain ⟨-, -, -, wait, hthread, -⟩ := of_mem_surveyOf hmem
  obtain ⟨thread, hthread'⟩ := exists_thread?_run hthread hafter
  have hlt := (List.getElem?_eq_some_iff.mp hthread').1
  omega

theorem Keeps.of_mem_surveys {network : Network} {I : World → Prop} (h : m.Keeps network I)
    (hcalls : KeptByCalls network I) (hrun : m.run moves = some m')
    (hsurvey : survey ∈ surveys id m moves) : I survey.network.world := by
  obtain ⟨before, after, -, hbefore, hmem⟩ := exists_run_of_mem_surveys hrun hsurvey
  obtain ⟨-, -, hnext, -⟩ := of_mem_surveyOf hmem
  exact (h.run hcalls hbefore).idle (isNext_iff.mp hnext).1

end Localnet.Machine
