import Localnet.Network.Vigil
import Mathlib.Order.Bounds.Basic
import Mathlib.Order.Nat

/-!
# The timetable of a wait

When each round begins, when its last check is answered, and what the wait comes to: all this follows
from what is seen and from how the checks go, without a look at how the wait gets there. The timetable
leaves nothing open: a wait comes to one thing at one moment.
-/

namespace Localnet

def AnsweredBy (begun : Nat) (targets : List (Client × Fate)) (t : Nat) : Prop :=
  begun ≤ t ∧ ∀ target ∈ targets, ∃ delay, target.2.delay = some delay ∧ begun + delay ≤ t

/-- The moment at which the last check of a round is answered: the first one at which none is open. -/
def AnsweredAt (begun : Nat) (targets : List (Client × Fate)) (t : Nat) : Prop :=
  IsLeast {t | AnsweredBy begun targets t} t

namespace Outlook

/-- The moments at which the rounds begin: the first one at the start, and each other one an interval
after the last check of the one before was answered. -/
inductive Begins (o : Outlook) : Nat → Nat → Prop
  | first : Begins o 0 o.start
  | next {k begun t : Nat} {targets : List (Client × Fate)} :
      Begins o k begun → o.sights k = .ok targets → AnsweredAt begun targets t →
      Begins o (k + 1) (t + o.interval)

def Completes (o : Outlook) (k t : Nat) : Prop :=
  ∃ begun targets, o.Begins k begun ∧ o.sights k = .ok targets ∧ AnsweredAt begun targets t

/-- Every check of a round is answered, and every answer is that the node is healthy. -/
def AllHealthy (o : Outlook) (k : Nat) : Prop :=
  ∃ targets, o.sights k = .ok targets ∧
    ∀ target ∈ targets, target.2.delay.isSome ∧ target.2.answer = .ok true

def limit (o : Outlook) : Nat := max o.start o.deadline

/-- The first round in which every node is healthy completes in time. -/
def Succeeds (o : Outlook) (t : Nat) : Prop :=
  ∃ k, o.AllHealthy k ∧ (∀ j < k, ¬ o.AllHealthy j) ∧ o.Completes k t ∧ t ≤ o.limit

/-- There is an error to be seen, in time and before any round in which every node is healthy. -/
def Fails (o : Outlook) (e : NetworkError) (t : Nat) : Prop :=
  ∃ k, o.sights k = .error e ∧ (∀ j < k, ¬ o.AllHealthy j) ∧ o.Begins k t ∧ t ≤ o.limit

/-- A round that has to begin at a moment: no error and no round in which every node is healthy comes
before its checks. -/
def Due (o : Outlook) (k t : Nat) : Prop :=
  o.Begins k t ∧ (∃ targets, o.sights k = .ok targets) ∧ ∀ j < k, ¬ o.AllHealthy j

/-- What a wait comes to, and when. -/
inductive ComesTo (o : Outlook) : Except NetworkError Unit → Nat → Prop
  | healthy {t : Nat} : o.Succeeds t → ComesTo o (.ok ()) t
  | failed {e : NetworkError} {t : Nat} : o.Fails e t → ComesTo o (.error e) t
  | timedOut : (∀ t, ¬ o.Succeeds t) → (∀ e t, ¬ o.Fails e t) →
      ComesTo o (.error .healthTimeout) o.limit

end Outlook

theorem exists_answeredAt_le {begun now : Nat} {targets : List (Client × Fate)}
    (h : AnsweredBy begun targets now) : ∃ t ≤ now, AnsweredAt begun targets t := by
  classical
  have hsome : ∃ t, AnsweredBy begun targets t := ⟨now, h⟩
  exact ⟨Nat.find hsome, Nat.find_min' hsome h, Nat.isLeast_find hsome⟩

/-- A round without an answer takes no time, and any other one is over with one of its answers. -/
theorem AnsweredAt.eq_or {begun t : Nat} {targets : List (Client × Fate)}
    (h : AnsweredAt begun targets t) :
    t = begun ∨ ∃ target ∈ targets, target.2.delay.map (begun + ·) = some t := by
  obtain ⟨⟨hbegun, hall⟩, hleast⟩ := h
  by_contra hnone
  rw [not_or] at hnone
  -- otherwise all checks were answered a moment before
  have hearlier : AnsweredBy begun targets (t - 1) := by
    refine ⟨by omega, fun target htarget => ?_⟩
    obtain ⟨delay, hdelay, hle⟩ := hall target htarget
    have hne : begun + delay ≠ t := by
      intro heq
      exact hnone.2 ⟨target, htarget, by simp [hdelay, heq]⟩
    exact ⟨delay, hdelay, by omega⟩
  have := hleast hearlier
  omega

namespace Outlook

variable {o : Outlook} {k j t t' : Nat} {e e' : NetworkError}

theorem Begins.unique (h : o.Begins k t) (h' : o.Begins k t') : t = t' := by
  induction h generalizing t' with
  | first =>
      cases h'
      rfl
  | next _ hsight hanswered ih =>
      cases h' with
      | next hbegins hsight' hanswered' =>
          obtain rfl := ih hbegins
          cases hsight.symm.trans hsight'
          rw [hanswered.unique hanswered']

theorem Begins.completes_iff {begun : Nat} {targets : List (Client × Fate)}
    (h : o.Begins k begun) (hsight : o.sights k = .ok targets) :
    o.Completes k t ↔ AnsweredAt begun targets t := by
  refine ⟨?_, fun hanswered => ⟨begun, targets, h, hsight, hanswered⟩⟩
  rintro ⟨begun', targets', hbegins, hsight', hanswered⟩
  obtain rfl := h.unique hbegins
  cases hsight.symm.trans hsight'
  exact hanswered

theorem Completes.unique (h : o.Completes k t) (h' : o.Completes k t') : t = t' := by
  obtain ⟨begun, targets, hbegins, hsight, hanswered⟩ := h
  exact hanswered.unique ((hbegins.completes_iff hsight).mp h')

theorem Begins.completes_of_lt (h : o.Begins k t) (hlt : j < k) :
    ∃ t', o.Completes j t' ∧ t' + o.interval ≤ t := by
  induction h with
  | first => omega
  | @next k begun t targets hbegins hsight hanswered ih =>
      rcases Nat.lt_succ_iff_lt_or_eq.mp hlt with hlt | rfl
      · obtain ⟨t', hcompletes, hle⟩ := ih hlt
        have hbegun : begun ≤ t := hanswered.1.1
        exact ⟨t', hcompletes, by omega⟩
      · exact ⟨t, ⟨begun, targets, hbegins, hsight, hanswered⟩, Nat.le_refl _⟩

theorem Begins.sight_of_lt (h : o.Begins k t) (hlt : j < k) : ∃ targets, o.sights j = .ok targets := by
  obtain ⟨_, ⟨_, targets, _, hsight, _⟩, _⟩ := h.completes_of_lt hlt
  exact ⟨targets, hsight⟩

/-- No round begins after an error. -/
theorem Begins.le_of_sight_error (h : o.Begins j t) (hsight : o.sights k = .error e) : j ≤ k := by
  by_contra hlt
  obtain ⟨targets, hok⟩ := h.sight_of_lt (Nat.lt_of_not_le hlt)
  cases hsight.symm.trans hok

theorem Due.lt_of_sight_error (hdue : o.Due j t) (hsight : o.sights k = .error e) : j < k := by
  obtain ⟨hbegins, ⟨targets, hok⟩, -⟩ := hdue
  refine Nat.lt_of_le_of_ne (hbegins.le_of_sight_error hsight) ?_
  rintro rfl
  cases hsight.symm.trans hok

theorem allHealthy_iff {targets : List (Client × Fate)} (hsight : o.sights k = .ok targets) :
    o.AllHealthy k ↔ ∀ target ∈ targets, target.2.delay.isSome ∧ target.2.answer = .ok true := by
  refine ⟨?_, fun h => ⟨targets, hsight, h⟩⟩
  rintro ⟨targets', hsight', h⟩
  cases hsight.symm.trans hsight'
  exact h

theorem Completes.exists_begins (h : o.Completes k t) : ∃ begun ≤ t, o.Begins k begun := by
  obtain ⟨begun, _, hbegins, _, hanswered⟩ := h
  exact ⟨begun, hanswered.1.1, hbegins⟩

theorem Begins.exists_begins_of_le (h : o.Begins k t) (hle : j ≤ k) : ∃ t' ≤ t, o.Begins j t' := by
  rcases Nat.eq_or_lt_of_le hle with rfl | hlt
  · exact ⟨t, Nat.le_refl t, h⟩
  · obtain ⟨u, hcompletes, hu⟩ := h.completes_of_lt hlt
    obtain ⟨begun, hle', hbegins⟩ := hcompletes.exists_begins
    exact ⟨begun, by omega, hbegins⟩

theorem Begins.le_of_le (h : o.Begins k t) (h' : o.Begins j t') (hle : k ≤ j) : t ≤ t' := by
  obtain ⟨u, hu, hbegins⟩ := h'.exists_begins_of_le hle
  rwa [h.unique hbegins]

theorem Succeeds.unique (h : o.Succeeds t) (h' : o.Succeeds t') : t = t' := by
  obtain ⟨k, hhealthy, hfirst, hcompletes, _⟩ := h
  obtain ⟨k', hhealthy', hfirst', hcompletes', _⟩ := h'
  rcases Nat.lt_trichotomy k k' with hlt | rfl | hlt
  · exact absurd hhealthy (hfirst' k hlt)
  · exact hcompletes.unique hcompletes'
  · exact absurd hhealthy' (hfirst k' hlt)

theorem Fails.unique (h : o.Fails e t) (h' : o.Fails e' t') : e = e' ∧ t = t' := by
  obtain ⟨k, hsight, _, hbegins, _⟩ := h
  obtain ⟨k', hsight', _, hbegins', _⟩ := h'
  obtain rfl : k = k' :=
    Nat.le_antisymm (hbegins.le_of_sight_error hsight') (hbegins'.le_of_sight_error hsight)
  cases hsight.symm.trans hsight'
  exact ⟨rfl, hbegins.unique hbegins'⟩

theorem Succeeds.not_fails (h : o.Succeeds t) : ¬ o.Fails e t' := by
  obtain ⟨k, hhealthy, _, hcompletes, _⟩ := h
  rintro ⟨k', hsight, hfirst, _, _⟩
  obtain ⟨begun, _, hbegins⟩ := hcompletes.exists_begins
  rcases Nat.eq_or_lt_of_le (hbegins.le_of_sight_error hsight) with rfl | hlt
  · obtain ⟨targets, hok, _⟩ := hhealthy
    cases hsight.symm.trans hok
  · exact hfirst k hlt hhealthy

/-- A wait comes to nothing by itself if no round so far is one with which it ends in time, and the
next one would begin too late. -/
theorem comesTo_timeout (hsights : ∀ j < k, ∃ targets, o.sights j = .ok targets)
    (hpast : ∀ j < k, o.AllHealthy j → ∀ t, o.Completes j t → o.limit < t)
    (hnext : ∀ t, o.Begins k t → o.limit < t) : o.ComesTo (.error .healthTimeout) o.limit := by
  have hlater : ∀ {k' t}, k ≤ k' → o.Begins k' t → o.limit < t := by
    intro k' t hle hbegins
    obtain ⟨t', hle', hbegins'⟩ := hbegins.exists_begins_of_le hle
    exact Nat.lt_of_lt_of_le (hnext t' hbegins') hle'
  refine .timedOut ?_ ?_
  · rintro t ⟨k', hhealthy, _, hcompletes, hle⟩
    rcases Nat.lt_or_ge k' k with hlt | hge
    · have := hpast k' hlt hhealthy t hcompletes
      omega
    · obtain ⟨begun, hbegun, hbegins⟩ := hcompletes.exists_begins
      have := hlater hge hbegins
      omega
  · rintro e t ⟨k', hsight, _, hbegins, hle⟩
    rcases Nat.lt_or_ge k' k with hlt | hge
    · obtain ⟨targets, hok⟩ := hsights k' hlt
      cases hsight.symm.trans hok
    · have := hlater hge hbegins
      omega

/-- A wait comes to one thing only. -/
theorem ComesTo.unique {result result' : Except NetworkError Unit} (h : o.ComesTo result t)
    (h' : o.ComesTo result' t') : result = result' ∧ t = t' := by
  cases h with
  | healthy hsucceeds =>
      cases h' with
      | healthy hsucceeds' => exact ⟨rfl, hsucceeds.unique hsucceeds'⟩
      | failed hfails => exact absurd hfails hsucceeds.not_fails
      | timedOut hnone _ => exact absurd hsucceeds (hnone t)
  | failed hfails =>
      cases h' with
      | healthy hsucceeds => exact absurd hfails hsucceeds.not_fails
      | failed hfails' =>
          obtain ⟨rfl, rfl⟩ := hfails.unique hfails'
          exact ⟨rfl, rfl⟩
      | timedOut _ hnone => exact absurd hfails (hnone _ t)
  | timedOut hnone hnone' =>
      cases h' with
      | healthy hsucceeds => exact absurd hsucceeds (hnone t')
      | failed hfails => exact absurd hfails (hnone' _ t')
      | timedOut _ _ => exact ⟨rfl, rfl⟩

theorem ComesTo.le_limit {result : Except NetworkError Unit} (h : o.ComesTo result t) :
    t ≤ o.limit := by
  cases h with
  | healthy hsucceeds => exact hsucceeds.choose_spec.2.2.2
  | failed hfails => exact hfails.choose_spec.2.2.2
  | timedOut _ _ => exact Nat.le_refl _

end Outlook

end Localnet
