import Localnet.Network.Machine

/-!
# Checks and the time that passes

When the checks of a round are answered, and how far time may pass while a wait has nothing to do.
-/

namespace Localnet

variable {wait : Wait} {now till begun : Nat} {targets : List (Client × Fate)}

theorem Check.isAnswered_ofFate {client : Client} {fate : Fate} :
    (Check.ofFate begun client fate).isAnswered now ↔
      ∃ delay, fate.delay = some delay ∧ begun + delay ≤ now := by
  cases hdelay : fate.delay <;> simp [Check.ofFate, Check.isAnswered, hdelay]

theorem Check.healthy_iff {check : Check} : check.healthy ↔ check.answer = .ok true := by
  unfold Check.healthy
  split
  next hanswer => rw [hanswer, Except.ok.injEq]
  next hanswer => simp [hanswer]

theorem Check.isAnswered_mono {check : Check} {later : Nat} (h : check.isAnswered now)
    (hle : now ≤ later) : check.isAnswered later := by
  simp only [Check.isAnswered, Option.any_eq_true, decide_eq_true_eq] at h ⊢
  obtain ⟨due, hdue, hanswered⟩ := h
  exact ⟨due, hdue, Nat.le_trans hanswered hle⟩

namespace Wait

theorem all_isAnswered_round :
    (round begun targets).all (·.isAnswered now) ↔
      ∀ target ∈ targets, ∃ delay, target.2.delay = some delay ∧ begun + delay ≤ now := by
  simp only [round, List.all_map, List.all_eq_true, Function.comp_apply, Check.isAnswered_ofFate]

theorem all_healthy_round :
    (round begun targets).all (·.healthy) ↔ ∀ target ∈ targets, target.2.answer = .ok true := by
  simp only [round, List.all_map, List.all_eq_true, Function.comp_apply, Check.healthy_iff, Check.ofFate]

theorem advance?_checking_eq_none_iff {checks : List Check} (hphase : wait.phase = .checking checks) :
    wait.advance? now = none ↔ ¬ checks.all (·.isAnswered now) := by
  unfold advance?
  rw [hphase]
  dsimp only
  split
  next hall => split <;> simp [hall]
  next hall => simp [hall]

theorem advance?_pausing_eq_none_iff {till : Nat} (hphase : wait.phase = .pausing till) :
    wait.advance? now = none ↔ now < till := by
  unfold advance?
  rw [hphase]
  dsimp only
  split
  next htill => simp [htill]
  next htill => simpa using htill

theorem needsRegistry_of_advance? {progress : Progress} (h : wait.advance? now = some progress) :
    wait.needsRegistry = false := by
  unfold advance? at h
  unfold needsRegistry
  cases hphase : wait.phase with
  | checking checks => rfl
  | pausing till => rfl
  | _ =>
      rw [hphase] at h
      cases h

theorem advance?_ne_entering {progress : Progress} (h : wait.advance? now = some progress) :
    progress ≠ .phase .entering := by
  unfold advance? at h
  split at h
  next => cases h
  next => cases h
  next =>
    split at h
    next =>
      split at h <;> cases h <;> exact nofun
    next => cases h
  next =>
    split at h <;> cases h
    exact nofun

theorem advance?_ne_checking {progress : Progress} (h : wait.advance? now = some progress)
    (checks : List Check) : progress ≠ .phase (.checking checks) := by
  unfold advance? at h
  split at h
  next => cases h
  next => cases h
  next =>
    split at h
    next =>
      split at h <;> cases h <;> exact nofun
    next => cases h
  next =>
    split at h <;> cases h
    exact nofun

theorem isOverdue_eq_false_of_isIdleTill (h : (Thread.waiting wait).isIdleTill now till) :
    wait.isOverdue now = false := by
  simp only [Thread.isIdleTill, Bool.and_eq_true, Bool.not_eq_true'] at h
  exact h.1.1

theorem advance?_eq_none_of_isIdleTill (h : (Thread.waiting wait).isIdleTill now till) :
    wait.advance? now = none := by
  simp only [Thread.isIdleTill, Bool.and_eq_true, Option.isNone_iff_eq_none] at h
  exact h.1.2

theorem isIdleTill_succ (hnotOverdue : wait.isOverdue now = false) (hstuck : wait.advance? now = none) :
    (Thread.waiting wait).isIdleTill now (now + 1) := by
  simp only [Thread.isIdleTill, hnotOverdue, hstuck, Bool.not_false, Option.isNone_none, Bool.and_self,
    Bool.true_and, List.all_eq_true, decide_eq_true_eq]
  omega

/-- Time does not pass beyond a moment at which a wait may go on. -/
theorem till_le_of_isIdleTill {timer : Nat} (h : (Thread.waiting wait).isIdleTill now till)
    (htimer : timer ∈ wait.timers) (hlt : now < timer) : till ≤ timer := by
  simp only [Thread.isIdleTill, Bool.and_eq_true, List.all_eq_true, decide_eq_true_eq] at h
  have := h.2 timer htimer
  omega

theorem till_le_deadline (h : (Thread.waiting wait).isIdleTill now till) (htimed : wait.isTimed) :
    till ≤ wait.deadline := by
  have hnotOverdue := isOverdue_eq_false_of_isIdleTill h
  rw [isOverdue, htimed, Bool.true_and, decide_eq_false_iff_not, Nat.not_le] at hnotOverdue
  refine till_le_of_isIdleTill h ?_ hnotOverdue
  simp [timers, htimed]

end Wait

end Localnet
