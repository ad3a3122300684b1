import Localnet.Proofs.Network.Ensures
import Localnet.Proofs.Network.Threads

/-!
# What calls keep, several callers keep

A call has the registry to its end. So what every call makes true again holds whenever nobody has the
registry, in whatever order the callers come, and whatever waits for health do in between.
-/

namespace Localnet

open World (anything)

variable {network : Network} {I : World → Prop}

theorem World.ensures_settle {α : Type} {P : World → HostRequest → Prop} {Q : α → World → Prop}
    {task : Task α} {w : World} (h : w.Ensures P Q task) :
    (w.settle task).2.Ensures P Q (w.settle task).1 := by
  induction task generalizing w with
  | done a => exact h
  | ask request next ih =>
      cases request with
      | registry => exact ih _ h
      | setRegistry r => exact ih _ h
      | host request => exact h

/-- Every call, from a world with the invariant on, has it again at its end. -/
def KeptByCalls (network : Network) (I : World → Prop) : Prop :=
  ∀ (call : Call) (w : World), I w → w.Ensures anything (fun _ => I) (call.operation network).run

namespace Machine

/-- The invariant holds when nobody has the registry, and the call that has it will make it true. -/
structure Keeps (network : Network) (I : World → Prop) (m : Machine) : Prop where
  network_eq : m.network = network
  fresh : ∀ id task, m.thread? id = some (.calling task) → m.holder ≠ some id →
    ∃ call : Call, task = (call.operation network).run
  held : ∀ id, m.holder = some id → ∃ task, m.thread? id = some (.calling task) ∧
    m.world.Ensures anything (fun _ => I) task
  idle : m.holder = none → I m.world

variable {m m' : Machine} {id : Nat}

theorem Keeps.spawn (h : m.Keeps network I) {thread : Thread}
    (hfresh : ∀ task, thread = .calling task → ∃ call : Call, task = (call.operation network).run) :
    (m.spawn thread).Keeps network I where
  network_eq := h.network_eq
  fresh id task hthread hholder := by
    rcases thread?_spawn_eq_some_iff.mp hthread with hthread | ⟨-, heq⟩
    · exact h.fresh id task hthread hholder
    · exact hfresh task heq
  held id hholder := by
    obtain ⟨task, hthread, hensures⟩ := h.held id hholder
    exact ⟨task, thread?_spawn hthread thread, hensures⟩
  idle := h.idle

/-- A thread that does not call may become another one that does not. -/
theorem Keeps.put (h : m.Keeps network I) {old thread : Thread} (hold : m.thread? id = some old)
    (hnotCalling : ∀ task, old ≠ .calling task) (hthread : ∀ task, thread ≠ .calling task) :
    (m.put id thread).Keeps network I where
  network_eq := h.network_eq
  fresh other task hother hholder := by
    by_cases heq : id = other
    · subst heq
      rw [thread?_put_self hold] at hother
      exact absurd (Option.some.inj hother) (hthread task)
    · exact h.fresh other task (thread?_put_of_ne thread heq ▸ hother) hholder
  held other hholder := by
    obtain ⟨task, hother, hensures⟩ := h.held other hholder
    have hne : id ≠ other := by
      rintro rfl
      exact hnotCalling task (Option.some.inj (hold.symm.trans hother))
    exact ⟨task, (thread?_put_of_ne thread hne).trans hother, hensures⟩
  idle := h.idle

theorem Keeps.progress (h : m.Keeps network I) {old wait : Wait}
    (hold : m.thread? id = some (.waiting old)) (progress : Wait.Progress) :
    (m.progress id wait progress).Keeps network I := by
  cases progress with
  | ended result => exact h.put hold (fun _ => nofun) fun _ => nofun
  | phase phase =>
      have hput : (m.put id (.waiting { wait with phase })).Keeps network I :=
        h.put hold (fun _ => nofun) fun _ => nofun
      unfold Machine.progress
      dsimp only
      split
      · exact ⟨hput.network_eq, hput.fresh, hput.held, hput.idle⟩
      · exact hput

/-- A call that goes on keeps the invariant, if it ensures it from here on. -/
theorem Keeps.proceed {old : Thread} {task : Task (Except NetworkError Answer)}
    (hnetwork : m.network = network)
    (hfresh : ∀ other task, other ≠ id → m.thread? other = some (.calling task) →
      ∃ call : Call, task = (call.operation network).run)
    (hold : m.thread? id = some old) (hensures : m.world.Ensures anything (fun _ => I) task) :
    (m.proceed id task).Keeps network I := by
  have hsettled := World.ensures_settle hensures
  unfold Machine.proceed
  generalize m.world.settle task = settled at hsettled
  obtain ⟨task', w'⟩ := settled
  -- the other threads are as they were, and this one is no call that waits for its turn
  have hothers : ∀ thread other task, (m.put id thread).thread? other = some (.calling task) →
      other ≠ id → ∃ call : Call, task = (call.operation network).run := by
    intro thread other task hother hne
    exact hfresh other task hne (thread?_put_of_ne thread hne.symm ▸ hother)
  cases task' with
  | done result =>
      refine ⟨hnetwork, fun other task hother _ => ?_, nofun, fun _ => hsettled⟩
      refine hothers (.ended result) other task hother ?_
      rintro rfl
      exact absurd ((thread?_put_self hold _).symm.trans hother) nofun
  | ask request next =>
      refine ⟨hnetwork, fun other task hother hholder => ?_, fun other hholder => ?_, nofun⟩
      · exact hothers _ other task hother fun heq => hholder (congrArg some heq.symm)
      · obtain rfl := Option.some.inj hholder
        exact ⟨_, thread?_put_self hold _, hsettled⟩

theorem Keeps.apply (hcalls : KeptByCalls network I) (h : m.Keeps network I) {move : Move}
    (hmove : m.apply move = some m') : m'.Keeps network I := by
  have hqueued : ∀ queue, Keeps network I { m with queue } :=
    fun _ => ⟨h.network_eq, h.fresh, h.held, h.idle⟩
  cases step_of_apply hmove with
  | called call =>
      refine h.spawn fun task heq => ⟨call, ?_⟩
      cases heq
      rw [h.network_eq]
  | awaited deadline => exact h.spawn fun _ => nofun
  | @granted id queue task _ hholder _ hthread =>
      have hnotHolder : ∀ other, m.holder ≠ some other := by simp [hholder]
      obtain ⟨call, rfl⟩ := h.fresh id task hthread (hnotHolder id)
      refine .proceed h.network_eq (fun other task _ hother => ?_) hthread
        (hcalls call m.world (h.idle hholder))
      exact h.fresh other task hother (hnotHolder other)
  | @looked _ queue _ _ _ _ hthread => exact (hqueued queue).progress hthread _
  | @skipped _ queue _ _ _ _ => exact hqueued queue
  | @answered id request next answer hholder hthread =>
      obtain ⟨task, hthread', hensures⟩ := h.held id hholder
      cases hthread.symm.trans hthread'
      refine .proceed h.network_eq (fun other task hne hother => ?_) hthread (hensures.2 _)
      exact h.fresh other task hother (holder_ne_of_ne hholder hne)
  | advanced hthread _ => exact h.progress hthread _
  | @expired id _ hthread _ _ _ =>
      have hput : (m.put id (.ended (.error .healthTimeout))).Keeps network I :=
        h.put hthread (fun _ => nofun) fun _ => nofun
      exact ⟨hput.network_eq, hput.fresh, hput.held, hput.idle⟩
  | ticked _ _ => exact ⟨h.network_eq, h.fresh, h.held, h.idle⟩

theorem Keeps.run (hcalls : KeptByCalls network I) {moves : List Move} (h : m.Keeps network I)
    (hrun : m.run moves = some m') : m'.Keeps network I :=
  invariant_run (fun h hmove => h.apply hcalls hmove) h hrun

theorem keeps_start (network : Network) (interval now : Nat) {w : World} (hw : I w) :
    (start network interval now w).Keeps network I := by
  refine ⟨rfl, fun id task hthread _ => ?_, nofun, fun _ => hw⟩
  cases hthread

/-- Another invariant may start when nobody has the registry. -/
theorem Keeps.of_idle {J : World → Prop} (h : m.Keeps network I) (hidle : m.holder = none)
    (hJ : J m.world) : m.Keeps network J where
  network_eq := h.network_eq
  fresh := h.fresh
  held id hholder := by simp [hidle] at hholder
  idle _ := hJ

/-- What every call keeps holds between the calls of all runs that start with it. -/
theorem invariant_of_run (hcalls : KeptByCalls network I) {interval now : Nat} {w : World}
    (hw : I w) {moves : List Move} (hrun : (start network interval now w).run moves = some m)
    (hidle : m.holder = none) : I m.world :=
  ((keeps_start network interval now hw).run hcalls hrun).idle hidle

end Machine

end Localnet
