import Localnet.Proofs.Network.Serial

/-!
# What a call leaves behind

A call among others has the registry for itself once, from its first look at it to its end. What it
ensures by itself it therefore ensures among all others, and what every call keeps holds from then on.
-/

namespace Localnet.Machine

open World (anything)

variable {network : Network} {I : World → Prop} {R : Except NetworkError Answer → World → Prop}
  {call : Call} {id : Nat} {m m' : Machine} {move : Move} {moves before after : List Move}
  {result : Except NetworkError Answer}

theorem exists_thread?_apply {thread : Thread} (h : m.thread? id = some thread)
    (hmove : m.apply move = some m') : ∃ thread', m'.thread? id = some thread' := by
  cases turn_of_apply h hmove with
  | rest hrest => exact ⟨thread, hrest.thread?_eq⟩
  | tick _ => exact ⟨thread, h⟩
  | begun _ => exact exists_thread?_proceed h
  | answered _ => exact exists_thread?_proceed h
  | looked _ => exact ⟨_, thread?_progress_self (m := { m with queue := m.queue.tail }) h _ _⟩
  | advanced _ => exact ⟨_, thread?_progress_self h _ _⟩
  | expired _ _ => exact ⟨_, thread?_put_self h _⟩

theorem exists_thread?_run {thread : Thread} (h : m.thread? id = some thread)
    (hrun : m.run moves = some m') : ∃ thread', m'.thread? id = some thread' := by
  refine invariant_run (I := fun m => ∃ thread', m.thread? id = some thread') ?_ ⟨thread, h⟩ hrun
  rintro m move m' ⟨thread', hthread⟩ hmove
  exact exists_thread?_apply hthread hmove

theorem result?_eq_some_iff : m.result? id = some result ↔ m.thread? id = some (.ended result) := by
  unfold result?
  split
  next other hthread => simp [hthread]
  next hnot => exact iff_of_false nofun fun h => hnot result h

theorem ended_of_apply (hthread : m.thread? id = some (.ended result)) (hmove : m.apply move = some m') :
    m'.thread? id = some (.ended result) ∧ m.now ≤ m'.now := by
  cases turn_of_apply hthread hmove with
  | rest hrest => exact ⟨hrest.thread?_eq, Nat.le_of_eq hrest.now_eq.symm⟩
  | tick _ => exact ⟨hthread, Nat.le_add_right _ _⟩

/-- How far a call has come. The invariant is kept in any case, and after its end `R` is. -/
inductive Course (network : Network) (I : World → Prop)
    (R : Except NetworkError Answer → World → Prop) (call : Call) (id : Nat) (m : Machine) : Prop
  | queued : m.thread? id = some (.calling (call.operation network).run) → m.holder ≠ some id →
      m.Keeps network I → Course network I R call id m
  | running {task : Task (Except NetworkError Answer)} : m.thread? id = some (.calling task) →
      m.holder = some id → m.Keeps network I → m.world.Ensures anything R task →
      Course network I R call id m
  | ended {result : Except NetworkError Answer} : m.thread? id = some (.ended result) →
      m.Keeps network (R result) → Course network I R call id m

theorem Course.proceed {task : Task (Except NetworkError Answer)} {old : Thread}
    (hweaker : ∀ result w, R result w → I w) (hnetwork : m.network = network)
    (hfresh : ∀ other task, other ≠ id → m.thread? other = some (.calling task) →
      ∃ call : Call, task = (call.operation network).run)
    (hold : m.thread? id = some old) (hensures : m.world.Ensures anything R task) :
    Course network I R call id (m.proceed id task) := by
  have hkeeps : (m.proceed id task).Keeps network I :=
    .proceed hnetwork hfresh hold (hensures.mono (fun _ _ h => h) hweaker)
  have hsettled := World.ensures_settle hensures
  revert hkeeps
  unfold Machine.proceed
  generalize m.world.settle task = settled at hsettled
  obtain ⟨task', w'⟩ := settled
  intro hkeeps
  cases task' with
  | done result =>
      refine .ended (thread?_put_self hold _) ⟨hkeeps.network_eq, hkeeps.fresh, nofun, fun _ => hsettled⟩
  | ask request next => exact .running (thread?_put_self hold _) rfl hkeeps hsettled

theorem Course.apply (hcalls : KeptByCalls network I) (hweaker : ∀ result w, R result w → I w)
    (hkept : ∀ result, KeptByCalls network (R result))
    (hends : ∀ w, I w → w.Ensures anything R (call.operation network).run)
    (h : Course network I R call id m) (hmove : m.apply move = some m') :
    Course network I R call id m' := by
  cases h with
  | queued hthread hholder hkeeps =>
      have hkeeps' := hkeeps.apply hcalls hmove
      have hstart := hends m.world
      -- the program has to be a variable for the cases of what a move can be
      revert hthread hstart
      generalize htask : (call.operation network).run = task
      intro hthread hstart
      cases turn_of_apply hthread hmove with
      | rest hrest =>
          exact .queued (htask ▸ hrest.thread?_eq) (mt hrest.holder_iff.mp hholder) hkeeps'
      | tick _ => exact .queued (htask ▸ hthread) hholder hkeeps'
      | begun hnext =>
          obtain ⟨hidle, -⟩ := isNext_iff.mp hnext
          refine .proceed hweaker hkeeps.network_eq (fun other task _ hother => ?_) hthread
            (hstart (hkeeps.idle hidle))
          exact hkeeps.fresh other task hother (by simp [hidle])
      | answered hholder' => exact absurd hholder' hholder
  | running hthread hholder hkeeps hensures =>
      have hkeeps' := hkeeps.apply hcalls hmove
      cases turn_of_apply hthread hmove with
      | rest hrest =>
          refine .running hrest.thread?_eq (hrest.holder_iff.mpr hholder) hkeeps' ?_
          rw [hrest.world_eq hholder]
          exact hensures
      | tick _ => exact .running hthread hholder hkeeps' hensures
      | begun hnext =>
          rw [isNext_iff, hholder] at hnext
          cases hnext.1
      | answered _ =>
          refine .proceed hweaker hkeeps.network_eq (fun other task hne hother => ?_) hthread
            (hensures.2 _)
          refine hkeeps.fresh other task hother ?_
          rw [hholder]
          exact fun heq => hne (Option.some.inj heq).symm
  | ended hthread hkeeps =>
      exact .ended (ended_of_apply hthread hmove).1 (hkeeps.apply (hkept _) hmove)

theorem Course.run (hcalls : KeptByCalls network I) (hweaker : ∀ result w, R result w → I w)
    (hkept : ∀ result, KeptByCalls network (R result))
    (hends : ∀ w, I w → w.Ensures anything R (call.operation network).run)
    (h : Course network I R call id m) (hrun : m.run moves = some m') :
    Course network I R call id m' :=
  invariant_run (fun h hmove => h.apply hcalls hweaker hkept hends hmove) h hrun

/-- A call that is made in the course of some moves has a result at their end. -/
def Returned (m : Machine) (moves : List Move) (call : Call) (result : Except NetworkError Answer) :
    Prop :=
  ∃ before after called m', moves = before ++ .call call :: after ∧ m.run before = some called ∧
    called.run (.call call :: after) = some m' ∧ m'.result? called.threads.length = some result

/-- What a call ensures holds once it has returned, whatever else goes on. -/
theorem Keeps.of_returned (h : m.Keeps network I) (hcalls : KeptByCalls network I)
    (hweaker : ∀ result w, R result w → I w) (hkept : ∀ result, KeptByCalls network (R result))
    (hends : ∀ w, I w → w.Ensures anything R (call.operation network).run)
    (hrun : m.run moves = some m') (hreturned : m.Returned moves call result) :
    m'.Keeps network (R result) := by
  obtain ⟨before, after, called, m'', rfl, hbefore, hafter, hresult⟩ := hreturned
  obtain rfl : m' = m'' := by
    obtain ⟨called', hbefore', hafter'⟩ := run_append.mp hrun
    cases hbefore.symm.trans hbefore'
    exact Option.some.inj (hafter'.symm.trans hafter)
  have hkeeps := h.run hcalls hbefore
  obtain ⟨next, hcall, hrest⟩ := run_cons.mp hafter
  have hnext := hkeeps.apply hcalls hcall
  obtain rfl := Option.some.inj hcall
  have hqueued : Course network I R call called.threads.length
      (called.spawn (.calling (call.operation called.network).run)) := by
    refine .queued ?_ ?_ hnext
    · rw [thread?_spawn_self, hkeeps.network_eq]
    · -- nobody but a thread that is there has the registry
      intro hholder
      obtain ⟨task, hthread, -⟩ := hkeeps.held _ hholder
      have hlt := (List.getElem?_eq_some_iff.mp hthread).1
      omega
  rw [result?_eq_some_iff] at hresult
  cases hqueued.run hcalls hweaker hkept hends hrest with
  | queued hthread _ _ => cases hresult.symm.trans hthread
  | running hthread _ _ _ => cases hresult.symm.trans hthread
  | ended hthread hkeeps' =>
      cases hresult.symm.trans hthread
      exact hkeeps'

end Localnet.Machine
