import Localnet.Proofs.Network.Checks
import Localnet.Proofs.Network.Timetable

/-!
# A wait keeps to its timetable

A wait for health on its own is on its timetable after any moves: its rounds begin when they are due,
and it ends with what it has to come to, not a moment later. `Stage` says where it is by then, and every
move leads from one stage to another.
-/

namespace Localnet

namespace Outlook

/-- Where a wait can be at a moment when it has begun some rounds. -/
inductive Stage (o : Outlook) : Wait.Progress → Nat → Nat → Prop
  | surveying {k now : Nat} : (∀ j < k, ¬ o.AllHealthy j) → o.Begins k now → now ≤ o.limit →
      Stage o (.phase .surveying) now k
  | checking {k begun now : Nat} {targets : List (Client × Fate)} :
      (∀ j < k, ¬ o.AllHealthy j) → o.Begins k begun → o.sights k = .ok targets → begun ≤ now →
      now ≤ o.limit → (∀ t, AnsweredAt begun targets t → now ≤ t) →
      Stage o (.phase (.checking (Wait.round begun targets))) now (k + 1)
  | pausing {k now till : Nat} : (∀ j < k, ¬ o.AllHealthy j) → o.Begins k till → now ≤ till →
      now ≤ o.limit → Stage o (.phase (.pausing till)) now k
  | ended {k now : Nat} {result : Except NetworkError Unit} : o.ComesTo result now →
      (∀ j t, o.Due j t → t ≤ now → j < k) → Stage o (.ended result) now k

/-- A wait that is on its timetable. -/
structure OnTime (o : Outlook) (v : Vigil) : Prop where
  stage : o.Stage v.progress v.now v.rounds.length
  start_le : o.start ≤ v.now
  /-- The rounds that it has begun are those that it sees, and each began when it was due. -/
  rounds : ∀ k round, v.rounds[k]? = some round → o.Begins k round.begun ∧
    ∃ targets, o.sights k = .ok targets ∧ round.checks = Wait.round round.begun targets

variable {o : Outlook} {v v' : Vigil}

theorem onTime_vigil (o : Outlook) : o.OnTime o.vigil where
  stage := .surveying nofun .first (Nat.le_max_left _ _)
  start_le := Nat.le_refl _
  rounds k round hround := by simp [vigil] at hround

theorem eq_limit_of_isOverdue {phase : Wait.Phase} {now : Nat} (hstart : o.start ≤ now)
    (hle : now ≤ o.limit) (h : (o.waitIn phase).isOverdue now) : now = o.limit := by
  have hdeadline : o.deadline ≤ now := of_decide_eq_true (Bool.and_eq_true _ _ ▸ h).2
  exact Nat.le_antisymm hle (Nat.max_le.mpr ⟨hstart, hdeadline⟩)

theorem Stage.le_limit {progress : Wait.Progress} {now k : Nat} (h : o.Stage progress now k) :
    now ≤ o.limit := by
  cases h with
  | surveying _ _ hle => exact hle
  | checking _ _ _ _ hle _ => exact hle
  | pausing _ _ _ hle => exact hle
  | ended hcomes _ => exact hcomes.le_limit

theorem Stage.lt_of_due {progress : Wait.Progress} {now k j t : Nat} (h : o.Stage progress now k)
    (hdue : o.Due j t) (hlt : t < now) : j < k := by
  by_contra hge
  rw [Nat.not_lt] at hge
  cases h with
  | surveying _ hnow _ =>
      have := hnow.le_of_le hdue.1 hge
      omega
  | @checking k begun _ targets _ hbegun hsight _ _ hopen =>
      obtain ⟨u, hcompletes, hu⟩ := hdue.1.completes_of_lt (Nat.lt_of_succ_le hge)
      have := hopen u ((hbegun.completes_iff hsight).mp hcompletes)
      omega
  | pausing _ htill hle _ =>
      have := htill.le_of_le hdue.1 hge
      omega
  | ended _ hbegun => exact absurd (hbegun j t hdue (Nat.le_of_lt hlt)) (Nat.not_lt.mpr hge)

theorem allHealthy_iff_of_answeredBy {k begun now : Nat} {targets : List (Client × Fate)}
    (hsight : o.sights k = .ok targets) (hby : AnsweredBy begun targets now) :
    o.AllHealthy k ↔ (Wait.round begun targets).all (·.healthy) := by
  rw [allHealthy_iff hsight, Wait.all_healthy_round]
  refine forall₂_congr fun target htarget => ?_
  obtain ⟨delay, hdelay, _⟩ := hby.2 target htarget
  simp [hdelay]

/-! ### The moves -/

theorem Stage.of_needsRegistry {phase : Wait.Phase} {now k : Nat}
    (h : o.Stage (.phase phase) now k) (hregistry : (o.waitIn phase).needsRegistry) :
    phase = .surveying ∧ (∀ j < k, ¬ o.AllHealthy j) ∧ o.Begins k now ∧ now ≤ o.limit := by
  cases h with
  | surveying hfirst hbegins hle => exact ⟨rfl, hfirst, hbegins, hle⟩
  | checking _ _ _ _ _ _ => cases hregistry
  | pausing _ _ _ _ => cases hregistry

theorem OnTime.look {phase : Wait.Phase} (h : o.OnTime v) (hphase : v.progress = .phase phase)
    (hregistry : (o.waitIn phase).needsRegistry) :
    o.OnTime (v.look (o.waitIn phase) (o.sights v.rounds.length)) := by
  obtain ⟨hstage, hstart, hrounds⟩ := h
  obtain ⟨rfl, hfirst, hbegins, hle⟩ := Stage.of_needsRegistry (hphase ▸ hstage) hregistry
  unfold Vigil.look
  cases hsight : o.sights v.rounds.length with
  | error e =>
      have hcomes : o.ComesTo (.error e) v.now := .failed ⟨_, hsight, hfirst, hbegins, hle⟩
      refine ⟨.ended hcomes fun j t hdue _ => ?_, hstart, ?_⟩
      · simp only [Wait.see, Vigil.roundBegun, List.append_nil]
        exact hdue.lt_of_sight_error hsight
      · simpa [Wait.see, Vigil.roundBegun] using hrounds
  | ok targets =>
      have hnow : ∀ t, AnsweredAt v.now targets t → v.now ≤ t := fun t ht => ht.1.1
      refine ⟨?_, hstart, fun k round hround => ?_⟩
      · rw [List.length_append]
        exact .checking hfirst hbegins hsight (Nat.le_refl _) hle hnow
      · rcases Nat.lt_or_ge k v.rounds.length with hlt | hge
        · rw [List.getElem?_append_left hlt] at hround
          exact hrounds k round hround
        · rw [List.getElem?_append_right hge] at hround
          obtain ⟨hlast, rfl⟩ := List.getElem?_eq_some_iff.mp hround
          obtain rfl : k = v.rounds.length := by
            have : k - v.rounds.length < 1 := hlast
            omega
          refine ⟨?_, targets, hsight, ?_⟩ <;> simp [Vigil.roundBegun, Wait.see, waitIn, hbegins]

theorem Stage.advance {phase : Wait.Phase} {progress : Wait.Progress} {now k : Nat}
    (h : o.Stage (.phase phase) now k) (hmove : (o.waitIn phase).advance? now = some progress) :
    o.Stage progress now k := by
  cases h with
  | surveying _ _ _ => cases hmove
  | @checking k begun _ targets hfirst hbegins hsight hbegun hle hopen =>
      simp only [Wait.advance?, waitIn] at hmove
      split at hmove
      next hall =>
        have hby : AnsweredBy begun targets now := ⟨hbegun, Wait.all_isAnswered_round.mp hall⟩
        -- the last check was answered just now, since time stops at the moment of its answer
        obtain ⟨t, hle', hanswered⟩ := exists_answeredAt_le hby
        obtain rfl : now = t := Nat.le_antisymm (hopen t hanswered) hle'
        split at hmove
        next hhealthy =>
          cases hmove
          have hall : o.AllHealthy k := (allHealthy_iff_of_answeredBy hsight hby).mpr hhealthy
          have hcomes : o.ComesTo (.ok ()) now :=
            .healthy ⟨k, hall, hfirst, ⟨begun, targets, hbegins, hsight, hanswered⟩, hle⟩
          refine .ended hcomes fun j t hdue _ => ?_
          by_contra hge
          exact hdue.2.2 k (by omega) hall
        next hunhealthy =>
          cases hmove
          have hnot : ¬ o.AllHealthy k := mt (allHealthy_iff_of_answeredBy hsight hby).mp hunhealthy
          have hfirst' : ∀ j < k + 1, ¬ o.AllHealthy j :=
            Nat.forall_lt_succ_right.mpr ⟨hfirst, hnot⟩
          exact .pausing hfirst' (.next hbegins hsight hanswered) (by omega) hle
      next => cases hmove
  | pausing hfirst hbegins hle hlimit =>
      simp only [Wait.advance?, waitIn] at hmove
      split at hmove
      next htill =>
        cases hmove
        obtain rfl := Nat.le_antisymm htill hle
        exact .surveying hfirst hbegins hlimit
      next => cases hmove

theorem Stage.timedOut {k : Nat} (hsights : ∀ j < k, ∃ targets, o.sights j = .ok targets)
    (hpast : ∀ j < k, o.AllHealthy j → ∀ t, o.Completes j t → o.limit < t)
    (hnext : ∀ t, o.Begins k t → o.limit < t) :
    o.Stage (.ended (.error .healthTimeout)) o.limit k := by
  refine .ended (comesTo_timeout hsights hpast hnext) fun j t hdue hle => ?_
  by_contra hge
  obtain ⟨t', hle', hbegins⟩ := hdue.1.exists_begins_of_le (Nat.le_of_not_lt hge)
  have := hnext t' hbegins
  omega

theorem Stage.expire {phase : Wait.Phase} {now k : Nat} (h : o.Stage (.phase phase) now k)
    (hstart : o.start ≤ now) (hoverdue : (o.waitIn phase).isOverdue now)
    (hstuck : (o.waitIn phase).advance? now = none)
    (hregistry : ¬ (o.waitIn phase).needsRegistry) :
    o.Stage (.ended (.error .healthTimeout)) now k := by
  obtain rfl := eq_limit_of_isOverdue hstart h.le_limit hoverdue
  cases h with
  | surveying _ _ _ => exact absurd rfl hregistry
  | @checking k begun _ targets hfirst hbegins hsight hbegun hle hopen =>
      -- some check is still open
      have hlate : ∀ t, o.Completes k t → o.limit < t := by
        intro t hcompletes
        have hanswered := (hbegins.completes_iff hsight).mp hcompletes
        refine Nat.lt_of_le_of_ne (hopen t hanswered) ?_
        rintro rfl
        exact (Wait.advance?_checking_eq_none_iff rfl).mp hstuck
          (Wait.all_isAnswered_round.mpr hanswered.1.2)
      refine .timedOut (Nat.forall_lt_succ_right.mpr ⟨fun j hj => ?_, targets, hsight⟩)
        (Nat.forall_lt_succ_right.mpr ⟨fun j hj hhealthy => ?_, fun _ => hlate⟩) fun t hnext => ?_
      · exact hbegins.sight_of_lt hj
      · exact absurd hhealthy (hfirst j hj)
      · obtain ⟨u, hcompletes, hu⟩ := hnext.completes_of_lt (Nat.lt_succ_self k)
        have := hlate u hcompletes
        omega
  | @pausing k _ till hfirst hbegins hle hlimit =>
      have hlt : o.limit < till := (Wait.advance?_pausing_eq_none_iff rfl).mp hstuck
      refine .timedOut (fun j hj => hbegins.sight_of_lt hj) (fun j hj hhealthy => ?_)
        fun t hnext => ?_
      · exact absurd hhealthy (hfirst j hj)
      · exact hbegins.unique hnext ▸ hlt

theorem Stage.tick {phase : Wait.Phase} {now k duration : Nat} (h : o.Stage (.phase phase) now k)
    (hregistry : ¬ (o.waitIn phase).needsRegistry)
    (hidle : (Thread.waiting (o.waitIn phase)).isIdleTill now (now + duration)) :
    o.Stage (.phase phase) (now + duration) k := by
  have hlimit : ∀ {phase}, (Thread.waiting (o.waitIn phase)).isIdleTill now (now + duration) →
      (o.waitIn phase).isTimed → now + duration ≤ o.limit :=
    fun hidle htimed => (Wait.till_le_deadline hidle htimed).trans (Nat.le_max_right _ _)
  have hstuck := Wait.advance?_eq_none_of_isIdleTill hidle
  cases h with
  | surveying _ _ _ => exact absurd rfl hregistry
  | @checking k begun _ targets hfirst hbegins hsight hbegun hle hopen =>
      refine .checking hfirst hbegins hsight (by omega) (hlimit hidle rfl) fun t hanswered => ?_
      have hlt : now < t := by
        -- otherwise the wait would have to go on now
        by_contra hge
        refine (Wait.advance?_checking_eq_none_iff rfl).mp hstuck ?_
        refine Wait.all_isAnswered_round.mpr fun target htarget => ?_
        obtain ⟨delay, hdelay, hdue⟩ := hanswered.1.2 target htarget
        exact ⟨delay, hdelay, by omega⟩
      rcases hanswered.eq_or with rfl | ⟨target, htarget, hdue⟩
      · omega
      · refine Wait.till_le_of_isIdleTill hidle ?_ hlt
        refine List.mem_append_right _ (List.mem_filterMap.mpr ⟨_, List.mem_map_of_mem htarget, hdue⟩)
  | @pausing k _ till hfirst hbegins hle _ =>
      have hlt : now < till := (Wait.advance?_pausing_eq_none_iff rfl).mp hstuck
      have htill : now + duration ≤ till :=
        Wait.till_le_of_isIdleTill hidle (List.mem_append_right _ (List.mem_singleton_self till)) hlt
      exact .pausing hfirst hbegins htill (hlimit hidle rfl)

/-! ### Runs -/

theorem OnTime.apply (h : o.OnTime v) {move : Vigil.Move} (hmove : o.apply v move = some v') :
    o.OnTime v' := by
  obtain ⟨now, progress, rounds⟩ := v
  obtain ⟨hstage, hstart, hrounds⟩ := h
  cases progress with
  | ended result => cases hmove
  | phase phase =>
      cases move with
      | look =>
          simp only [Outlook.apply] at hmove
          split at hmove
          next hregistry =>
            cases hmove
            exact OnTime.look ⟨hstage, hstart, hrounds⟩ rfl hregistry
          next => cases hmove
      | advance =>
          obtain ⟨progress, hadvance, rfl⟩ := Option.map_eq_some_iff.mp hmove
          exact ⟨hstage.advance hadvance, hstart, hrounds⟩
      | expire =>
          simp only [Outlook.apply] at hmove
          split at hmove
          next hcond =>
            cases hmove
            obtain ⟨hoverdue, hstuck, hregistry⟩ := hcond
            have hended := hstage.expire hstart hoverdue (Option.isNone_iff_eq_none.mp hstuck) hregistry
            exact ⟨hended, hstart, hrounds⟩
          next => cases hmove
      | tick duration =>
          simp only [Outlook.apply] at hmove
          split at hmove
          next hcond =>
            cases hmove
            exact ⟨hstage.tick hcond.1 hcond.2, hstart.trans (Nat.le_add_right _ _), hrounds⟩
          next => cases hmove

theorem OnTime.run {moves : List Vigil.Move} (h : o.OnTime v) (hrun : o.run v moves = some v') :
    o.OnTime v' := by
  induction moves generalizing v with
  | nil =>
      obtain rfl := Option.some.inj hrun
      exact h
  | cons move rest ih =>
      obtain ⟨next, hmove, hrest⟩ := Option.bind_eq_some_iff.mp hrun
      exact ih (h.apply hmove) hrest

theorem now_le_of_apply {move : Vigil.Move} (hmove : o.apply v move = some v') : v.now ≤ v'.now := by
  unfold Outlook.apply at hmove
  split at hmove
  next => cases hmove
  next =>
    cases move with
    | advance =>
        obtain ⟨progress, -, rfl⟩ := Option.map_eq_some_iff.mp hmove
        exact Nat.le_refl _
    | tick duration =>
        dsimp only at hmove
        split at hmove <;> cases hmove
        exact Nat.le_add_right _ _
    | _ =>
        dsimp only at hmove
        split at hmove <;> cases hmove
        exact Nat.le_refl _

/-! ### The end -/

/-- How much a wait has to do at once. -/
def rank (now : Nat) : Wait.Progress → Nat
  | .phase (.pausing till) => if till ≤ now then 4 else 1
  | .phase .surveying => 3
  | .phase (.checking _) => 2
  | .phase .entering | .ended _ => 0

/-- How far a wait is from its end. A moment that passes counts for more than all it can do at once. -/
def distance (o : Outlook) (v : Vigil) : Nat := 5 * (o.limit - v.now) + rank v.now v.progress

theorem rank_lt (now : Nat) (progress : Wait.Progress) : rank now progress < 5 := by
  unfold rank
  repeat' split
  all_goals omega

theorem Stage.rank_pos {phase : Wait.Phase} {now k : Nat} (h : o.Stage (.phase phase) now k) :
    0 < rank now (.phase phase) := by
  cases h with
  | surveying _ _ _ => simp [rank]
  | checking _ _ _ _ _ _ => simp [rank]
  | pausing _ _ _ _ =>
      unfold rank
      dsimp only
      split <;> omega

theorem rank_of_advance {phase : Wait.Phase} {progress : Wait.Progress} {now : Nat}
    (hinterval : 0 < o.interval) (h : (o.waitIn phase).advance? now = some progress) :
    rank now progress < rank now (.phase phase) := by
  cases phase with
  | entering => cases h
  | surveying => cases h
  | checking checks =>
      simp only [Wait.advance?, waitIn] at h
      split at h
      next =>
        split at h <;> cases h
        · simp [rank]
        · have hlater : ¬ now + o.interval ≤ now := by omega
          simp [rank, hlater]
      next => cases h
  | pausing till =>
      simp only [Wait.advance?, waitIn] at h
      split at h
      next htill =>
        cases h
        simp [rank, htill]
      next => cases h

/-- A wait that has not ended can always make a move that brings it closer to its end. -/
theorem OnTime.exists_move {phase : Wait.Phase} (h : o.OnTime v) (hinterval : 0 < o.interval)
    (hphase : v.progress = .phase phase) :
    ∃ move v', o.apply v move = some v' ∧ o.distance v' < o.distance v := by
  obtain ⟨now, progress, rounds⟩ := v
  obtain rfl : progress = .phase phase := hphase
  have hstage := h.stage
  -- it looks if it can, then goes on, then ends, and only then does time pass
  by_cases hregistry : (o.waitIn phase).needsRegistry
  · obtain ⟨rfl, -, -, -⟩ := hstage.of_needsRegistry hregistry
    have hmove : o.apply ⟨now, .phase .surveying, rounds⟩ .look =
        some (Vigil.look ⟨now, .phase .surveying, rounds⟩ (o.waitIn .surveying)
          (o.sights rounds.length)) := rfl
    refine ⟨.look, _, hmove, Nat.add_lt_add_left ?_ _⟩
    dsimp only [Vigil.look]
    cases o.sights rounds.length <;> simp [Wait.see, rank, waitIn]
  cases hadvance : (o.waitIn phase).advance? now with
  | some progress =>
      refine ⟨.advance, ⟨now, progress, rounds⟩, by simp [Outlook.apply, hadvance], ?_⟩
      exact Nat.add_lt_add_left (rank_of_advance hinterval hadvance) _
  | none =>
      by_cases hoverdue : (o.waitIn phase).isOverdue now
      · refine ⟨.expire, _, if_pos ⟨hoverdue, by simp [hadvance], hregistry⟩, ?_⟩
        exact Nat.add_lt_add_left hstage.rank_pos _
      · have hidle := Wait.isIdleTill_succ (by simpa using hoverdue) hadvance
        refine ⟨.tick 1, _, if_pos ⟨hregistry, hidle⟩, ?_⟩
        have hlimit : now + 1 ≤ o.limit := (hstage.tick hregistry hidle).le_limit
        have hrank := rank_lt (now + 1) (.phase phase)
        dsimp only [distance]
        omega

theorem OnTime.exists_end (h : o.OnTime v) (hinterval : 0 < o.interval) :
    ∃ moves v' result, o.run v moves = some v' ∧ v'.progress = .ended result := by
  generalize hdistance : o.distance v = d
  induction d using Nat.strong_induction_on generalizing v with
  | h d ih =>
      cases hprogress : v.progress with
      | ended result => exact ⟨[], v, result, rfl, hprogress⟩
      | phase phase =>
          obtain ⟨move, v₁, hmove, hcloser⟩ := h.exists_move hinterval hprogress
          obtain ⟨moves, v', result, hrun, hended⟩ := ih _ (hdistance ▸ hcloser) (h.apply hmove) rfl
          refine ⟨move :: moves, v', result, ?_, hended⟩
          exact Option.bind_eq_some_iff.mpr ⟨v₁, hmove, hrun⟩

theorem Stage.comesTo {result : Except NetworkError Unit} {progress : Wait.Progress} {now k : Nat}
    (h : o.Stage progress now k) (hended : progress = .ended result) : o.ComesTo result now := by
  subst hended
  cases h with
  | ended hcomes _ => exact hcomes

/-- A wait ends with a result at a moment. -/
def Returns (o : Outlook) (result : Except NetworkError Unit) (t : Nat) : Prop :=
  ∃ moves v, o.run o.vigil moves = some v ∧ v.progress = .ended result ∧ v.now = t

theorem returns_iff_comesTo (hinterval : 0 < o.interval) {result : Except NetworkError Unit} {t : Nat} :
    o.Returns result t ↔ o.ComesTo result t := by
  have hcomes : ∀ {result t}, o.Returns result t → o.ComesTo result t := by
    rintro result t ⟨moves, v, hrun, hended, rfl⟩
    exact ((onTime_vigil o).run hrun).stage.comesTo hended
  refine ⟨hcomes, fun h => ?_⟩
  -- the wait comes to its end anyway, and there is only one that it can come to
  obtain ⟨moves, v, result', hrun, hended⟩ := (onTime_vigil o).exists_end hinterval
  have hreturns : o.Returns result' v.now := ⟨moves, v, hrun, hended, rfl⟩
  obtain ⟨rfl, rfl⟩ := h.unique (hcomes hreturns)
  exact hreturns

/-- What holds of a wait at any moment, in terms of its own rounds. -/
structure Orderly (o : Outlook) (v : Vigil) : Prop where
  now_le_limit : v.now ≤ max o.start o.deadline
  first : ∀ round, v.rounds[0]? = some round → round.begun = o.start
  /-- A round begins an interval after the last check of the one before was answered. -/
  next : ∀ k earlier later, v.rounds[k]? = some earlier → v.rounds[k + 1]? = some later →
    ∃ t, IsLeast {t | earlier.begun ≤ t ∧ earlier.checks.all (·.isAnswered t)} t ∧
      later.begun = t + o.interval
  /-- A round checks what is seen as it begins. -/
  sights : ∀ k round, v.rounds[k]? = some round →
    ∃ targets, o.sights k = .ok targets ∧ round.checks = Wait.round round.begun targets
  /-- No round is left out. -/
  begun : ∀ k t, o.Due k t → t < v.now → k < v.rounds.length
  exists_end : ∃ moves v' result, o.run v moves = some v' ∧ v'.progress = .ended result

theorem OnTime.orderly (h : o.OnTime v) (hinterval : 0 < o.interval) : o.Orderly v where
  now_le_limit := h.stage.le_limit
  first round hround := (h.rounds 0 round hround).1.unique .first
  next k earlier later hearlier hlater := by
    obtain ⟨hbegins, targets, hsight, hchecks⟩ := h.rounds k earlier hearlier
    obtain ⟨hbegins', -⟩ := h.rounds (k + 1) later hlater
    obtain ⟨t, ⟨begun, targets', hbegins'', hsight', hanswered⟩, hle⟩ :=
      hbegins'.completes_of_lt (Nat.lt_succ_self k)
    obtain rfl := hbegins.unique hbegins''
    cases hsight.symm.trans hsight'
    refine ⟨t, ?_, hbegins'.unique (.next hbegins hsight hanswered)⟩
    simpa only [hchecks, Wait.all_isAnswered_round, AnsweredAt, AnsweredBy] using hanswered
  sights k round hround := (h.rounds k round hround).2
  begun k t hdue hlt := h.stage.lt_of_due hdue hlt
  exists_end := h.exists_end hinterval

theorem now_le_of_run {moves : List Vigil.Move} (hrun : o.run v moves = some v') : v.now ≤ v'.now := by
  induction moves generalizing v with
  | nil =>
      obtain rfl := Option.some.inj hrun
      exact Nat.le_refl _
  | cons move rest ih =>
      obtain ⟨next, hmove, hrest⟩ := Option.bind_eq_some_iff.mp hrun
      exact (now_le_of_apply hmove).trans (ih hrest)

/-- A wait comes to nothing in the past. -/
theorem OnTime.le_of_comesTo {result : Except NetworkError Unit} {t : Nat} (h : o.OnTime v)
    (hinterval : 0 < o.interval) (hcomes : o.ComesTo result t) : v.now ≤ t := by
  obtain ⟨moves, v', result', hrun, hended⟩ := h.exists_end hinterval
  have hcomes' := (h.run hrun).stage.comesTo hended
  obtain ⟨rfl, rfl⟩ := hcomes.unique hcomes'
  exact now_le_of_run hrun

end Outlook

end Localnet
