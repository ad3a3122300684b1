import Localnet.Process.Handle
import Mathlib.Data.List.Induction

/-!
# What happens to a handle

`Step` says once what each move can be and what it needs; every law of a handle is a case analysis over
it. What a handle has come to know it keeps, and each call ends in one move, by what that move finds.
-/

namespace Localnet

/-- The call that a move adds. -/
def HandleMove.call? : HandleMove → Option HandleCall
  | .call c => some c
  | .acquire _ | .act _ _ | .observe _ | .childEnds _ | .noticeEnd | .noticeRequest | .reap => none

/-- The call that makes a move. -/
def HandleMove.caller? : HandleMove → Option Nat
  | .acquire id | .observe id => some id
  | .act id _ => some id
  | .call _ | .childEnds _ | .noticeEnd | .noticeRequest | .reap => none

/-- Whether the supervisor tells by this move how the child ended. -/
def HandleMove.tells : HandleMove → Bool
  | .noticeEnd | .reap => true
  | .call _ | .acquire _ | .act _ _ | .observe _ | .childEnds _ | .noticeRequest => false

/-- The call that is still under way, as far as the state of it shows. -/
def CallState.call? : CallState → Option HandleCall
  | .queued call => some call
  | .holding call => some call
  | .watching => some .wait
  | .done _ => none

/-- The exit that a supervisor has told of. -/
def SupervisorState.exit? : SupervisorState → Option Exit
  | .finished exit => some exit
  | .watching | .terminating => none

namespace Handle

variable {h h' h₁ h₂ : Handle} {node path : String} {args : List String} {id : Nat} {call : HandleCall}
  {move : HandleMove} {moves before after : List HandleMove} {result : Except HandleFault Unit}
  {exit : Exit} {made : List HandleCall}

def asked (moves : List HandleMove) : List HandleCall := moves.filterMap (·.call?)

theorem asked_append (before after : List HandleMove) :
    asked (before ++ after) = asked before ++ asked after :=
  List.filterMap_append

/-! ### Runs -/

theorem run_cons : h.run (move :: moves) = some h' ↔
    ∃ h₁, h.apply move = some h₁ ∧ h₁.run moves = some h' :=
  Option.bind_eq_some_iff

theorem run_append : h.run (before ++ after) = some h' ↔
    ∃ h₁, h.run before = some h₁ ∧ h₁.run after = some h' := by
  simp only [run, List.foldlM_append]
  exact Option.bind_eq_some_iff

/-! ### One move -/

/-- What a move makes of what is known of the child. -/
inductive Watched : HandleMove → Supervision → Supervision → Prop
  | childEnds {s : Supervision} (ending : Ending) (hruns : s.ending = none) :
      Watched (.childEnds ending) s { s with ending := some ending }
  | noticeEnd {s : Supervision} {ending : Ending} (hwatching : s.supervisor = .watching)
      (hended : s.ending = some ending) :
      Watched .noticeEnd s { s with supervisor := .finished ⟨false, ending⟩ }
  | noticeRequest {s : Supervision} (hwatching : s.supervisor = .watching)
      (hrequested : s.stopRequested) : Watched .noticeRequest s { s with supervisor := .terminating }
  | reap {s : Supervision} {ending : Ending} (hterminating : s.supervisor = .terminating)
      (hended : s.ending = some ending) :
      Watched .reap s { s with supervisor := .finished ⟨true, ending⟩ }

inductive Step (h : Handle) : HandleMove → Handle → Prop
  | call (call : HandleCall) : Step h (.call call) { h with calls := h.calls ++ [.queued call] }
  | acquire {id : Nat} {call : HandleCall} (hidle : h.holder = none)
      (hcall : h.calls[id]? = some (.queued call)) :
      Step h (.acquire id) { h with holder := some id, calls := h.calls.set id (.holding call) }
  | refuse {id : Nat} (launch : Except SystemError Unit)
      (hcall : h.calls[id]? = some (.holding .start)) (hstarted : h.supervision.isSome) :
      Step h (.act id launch) (h.finish id (.done (.error (.alreadyStarted h.node))))
  | launch {id : Nat} (hcall : h.calls[id]? = some (.holding .start)) (hnew : h.supervision = none) :
      Step h (.act id (.ok ())) { h.finish id (.done (.ok ())) with
        supervision := some launchedChild, launched := h.launched + 1 }
  | fail {id : Nat} (e : SystemError) (hcall : h.calls[id]? = some (.holding .start))
      (hnew : h.supervision = none) :
      Step h (.act id (.error e)) (h.finish id (.done (.error (.launch h.binaryPath e))))
  | stop {id : Nat} (launch : Except SystemError Unit) (hcall : h.calls[id]? = some (.holding .stop)) :
      Step h (.act id launch) { h.finish id (.done (.ok ())) with
        supervision := h.supervision.map ({ · with stopRequested := true }) }
  | watch {id : Nat} (launch : Except SystemError Unit) (hcall : h.calls[id]? = some (.holding .wait))
      (hstarted : h.supervision.isSome) : Step h (.act id launch) (h.finish id .watching)
  | neverStarted {id : Nat} (launch : Except SystemError Unit)
      (hcall : h.calls[id]? = some (.holding .wait)) (hnew : h.supervision = none) :
      Step h (.act id launch) (h.finish id (.done (.error (.neverStarted h.node))))
  | observe {id : Nat} {exit : Exit} (hcall : h.calls[id]? = some .watching)
      (hexit : h.exit? = some exit) :
      Step h (.observe id) { h with calls := h.calls.set id (.done (verdict h.node exit)) }
  | supervise {move : HandleMove} {s s' : Supervision} (hs : h.supervision = some s)
      (hwatched : Watched move s s') : Step h move { h with supervision := some s' }

theorem of_supervise {step : Supervision → Option Supervision} (hmove : h.supervise step = some h') :
    ∃ s s', h.supervision = some s ∧ step s = some s' ∧ h' = { h with supervision := some s' } := by
  obtain ⟨s, hs, hrest⟩ := Option.bind_eq_some_iff.mp hmove
  obtain ⟨s', hstep, hmade⟩ := Option.bind_eq_some_iff.mp hrest
  exact ⟨s, s', hs, hstep, (Option.some.inj hmade).symm⟩

theorem step_of_act (launch : Except SystemError Unit) (hcall : h.calls[id]? = some (.holding call)) :
    Step h (.act id launch) (h.perform id launch call) := by
  cases call with
  | start =>
      simp only [perform]
      split
      next hstarted => exact .refuse launch hcall hstarted
      next hnew =>
        have hnone : h.supervision = none := Option.not_isSome_iff_eq_none.mp hnew
        cases launch with
        | ok _ => exact .launch hcall hnone
        | error e => exact .fail e hcall hnone
  | stop => exact .stop launch hcall
  | wait =>
      simp only [perform]
      split
      next hstarted => exact .watch launch hcall hstarted
      next hnew => exact .neverStarted launch hcall (Option.not_isSome_iff_eq_none.mp hnew)

theorem step_of_apply (hmove : h.apply move = some h') : Step h move h' := by
  cases move with
  | call call => exact Option.some.inj hmove ▸ .call call
  | acquire id =>
      simp only [apply] at hmove
      split at hmove
      next hidle hcall => exact Option.some.inj hmove ▸ .acquire hidle hcall
      next => cases hmove
  | act id launch =>
      simp only [apply] at hmove
      split at hmove
      next hcall => exact Option.some.inj hmove ▸ step_of_act _ hcall
      next => cases hmove
  | observe id =>
      simp only [apply] at hmove
      split at hmove
      next hcall hexit => exact Option.some.inj hmove ▸ .observe hcall hexit
      next => cases hmove
  | childEnds ending =>
      obtain ⟨s, s', hs, hstep, rfl⟩ := of_supervise hmove
      split at hstep
      next hruns =>
        obtain rfl := Option.some.inj hstep
        exact .supervise hs (.childEnds ending (by simpa using hruns))
      next => cases hstep
  | noticeEnd =>
      obtain ⟨s, s', hs, hstep, rfl⟩ := of_supervise hmove
      split at hstep
      next hwatching hended =>
        obtain rfl := Option.some.inj hstep
        exact .supervise hs (.noticeEnd hwatching hended)
      next => cases hstep
  | noticeRequest =>
      obtain ⟨s, s', hs, hstep, rfl⟩ := of_supervise hmove
      split at hstep
      next hwatching =>
        split at hstep
        next hrequested =>
          obtain rfl := Option.some.inj hstep
          exact .supervise hs (.noticeRequest hwatching hrequested)
        next => cases hstep
      all_goals cases hstep
  | reap =>
      obtain ⟨s, s', hs, hstep, rfl⟩ := of_supervise hmove
      split at hstep
      next hterminating hended =>
        obtain rfl := Option.some.inj hstep
        exact .supervise hs (.reap hterminating hended)
      next => cases hstep

/-- What holds at first and is preserved by every step holds after every run. -/
theorem run_induction {P : Handle → List HandleMove → Prop} (hstart : P h [])
    (hstep : ∀ moves h₁ move h₂, h.run moves = some h₁ → P h₁ moves → Step h₁ move h₂ →
      P h₂ (moves ++ [move])) (hrun : h.run moves = some h') : P h' moves := by
  induction moves using List.reverseRecOn generalizing h' with
  | nil => exact Option.some.inj hrun ▸ hstart
  | append_singleton before move ih =>
      obtain ⟨h₁, hbefore, hlast⟩ := run_append.mp hrun
      obtain ⟨h₂, hmove, hnil⟩ := run_cons.mp hlast
      exact Option.some.inj hnil ▸
        hstep before h₁ move h₂ hbefore (ih hbefore) (step_of_apply hmove)

/-! ### What a handle has come to know -/

@[simp] theorem holder_finish (h : Handle) (id : Nat) (state : CallState) :
    (h.finish id state).holder = none := rfl

@[simp] theorem calls_finish (h : Handle) (id : Nat) (state : CallState) :
    (h.finish id state).calls = h.calls.set id state := rfl

@[simp] theorem supervision_finish (h : Handle) (id : Nat) (state : CallState) :
    (h.finish id state).supervision = h.supervision := rfl

@[simp] theorem launched_finish (h : Handle) (id : Nat) (state : CallState) :
    (h.finish id state).launched = h.launched := rfl

theorem exit?_eq_bind (h : Handle) : h.exit? = h.supervision.bind fun s => s.supervisor.exit? := by
  unfold exit?
  cases hs : h.supervision with
  | none => rfl
  | some s => cases hstate : s.supervisor <;> simp [hstate, SupervisorState.exit?]

theorem exit?_eq_some_iff : h.exit? = some exit ↔
    ∃ s, h.supervision = some s ∧ s.supervisor = .finished exit := by
  rw [exit?_eq_bind, Option.bind_eq_some_iff]
  refine exists_congr fun s => and_congr_right fun _ => ?_
  cases s.supervisor <;> simp [SupervisorState.exit?]

/-- The rest of a handle's life never takes these back. -/
structure Kept (h h' : Handle) : Prop where
  node_eq : h'.node = h.node
  binaryPath_eq : h'.binaryPath = h.binaryPath
  args_eq : h'.args = h.args
  started : h.supervision.isSome → h'.supervision.isSome
  exit : ∀ exit, h.exit? = some exit → h'.exit? = some exit

theorem Kept.refl (h : Handle) : Kept h h := ⟨rfl, rfl, rfl, id, fun _ => id⟩

theorem Kept.trans (first : Kept h h₁) (second : Kept h₁ h₂) : Kept h h₂ where
  node_eq := second.node_eq.trans first.node_eq
  binaryPath_eq := second.binaryPath_eq.trans first.binaryPath_eq
  args_eq := second.args_eq.trans first.args_eq
  started := second.started ∘ first.started
  exit exit := second.exit exit ∘ first.exit exit

theorem Watched.supervisor {s s' : Supervision} (hwatched : Watched move s s')
    (hexit : s.supervisor = .finished exit) : s'.supervisor = .finished exit := by
  cases hwatched with
  | childEnds ending hruns => exact hexit
  | noticeEnd hwatching | noticeRequest hwatching => cases hwatching.symm.trans hexit
  | reap hterminating => cases hterminating.symm.trans hexit

theorem Step.kept (hstep : Step h move h') : Kept h h' := by
  cases hstep with
  | call | acquire | refuse | fail | watch | neverStarted | observe =>
      exact ⟨rfl, rfl, rfl, id, fun _ => id⟩
  | launch hcall hnew =>
      refine ⟨rfl, rfl, rfl, fun _ => rfl, fun exit hexit => ?_⟩
      obtain ⟨s, hs, -⟩ := exit?_eq_some_iff.mp hexit
      cases hnew.symm.trans hs
  | stop launch hcall =>
      refine ⟨rfl, rfl, rfl, fun hstarted => by simpa using hstarted, fun exit hexit => ?_⟩
      obtain ⟨s, hs, hfinished⟩ := exit?_eq_some_iff.mp hexit
      exact exit?_eq_some_iff.mpr ⟨{ s with stopRequested := true }, by simp [hs], hfinished⟩
  | supervise hs hwatched =>
      refine ⟨rfl, rfl, rfl, fun _ => rfl, fun exit hexit => ?_⟩
      obtain ⟨s, hs', hfinished⟩ := exit?_eq_some_iff.mp hexit
      obtain rfl := Option.some.inj (hs.symm.trans hs')
      exact exit?_eq_some_iff.mpr ⟨_, rfl, hwatched.supervisor hfinished⟩

theorem kept_of_run (hrun : h.run moves = some h') : Kept h h' :=
  run_induction (P := fun h' _ => Kept h h') (.refl h)
    (fun _ _ _ _ _ ih hstep => ih.trans hstep.kept) hrun

/-! ### How a call ends -/

/-- What a call comes to, by what it finds when it ends. -/
inductive Ends (h h' : Handle) : HandleCall → Except HandleFault Unit → Prop
  | refused (hstarted : h.supervision.isSome) : Ends h h' .start (.error (.alreadyStarted h.node))
  | launched (hnew : h.supervision = none) (hchild : h'.supervision = some launchedChild) :
      Ends h h' .start (.ok ())
  | failed (e : SystemError) (hnew : h.supervision = none) :
      Ends h h' .start (.error (.launch h.binaryPath e))
  | stopped : Ends h h' .stop (.ok ())
  | neverStarted (hnew : h.supervision = none) : Ends h h' .wait (.error (.neverStarted h.node))
  | seen (exit : Exit) (hexit : h.exit? = some exit) : Ends h h' .wait (verdict h.node exit)

theorem result?_eq_some_iff : h.result? id = some result ↔ h.calls[id]? = some (.done result) := by
  unfold result?
  split
  next heq => simp [heq]
  next hne => simpa using fun heq => hne result heq

/-- What a move makes of one of the calls. -/
inductive Moved (h : Handle) (move : HandleMove) (h' : Handle) (id : Nat) : Prop
  | same (heq : h'.calls[id]? = h.calls[id]?)
  | arrives (call : HandleCall) (hmove : move.call? = some call) (hnew : id = h.calls.length)
      (hmade : h'.calls[id]? = some (.queued call))
  | acquires (call : HandleCall) (hcall : h.calls[id]? = some (.queued call))
      (hmade : h'.calls[id]? = some (.holding call))
  | watches (hcall : h.calls[id]? = some (.holding .wait)) (hmade : h'.calls[id]? = some .watching)
  | ends (call : HandleCall) (state : CallState) (result : Except HandleFault Unit)
      (hmove : move.caller? = some id) (hcall : h.calls[id]? = some state) (hof : state.call? = some call)
      (hmade : h'.calls[id]? = some (.done result)) (hend : Ends h h' call result)

theorem moved_of_set {other : Nat} {old state : CallState} (hcalls : h'.calls = h.calls.set other state)
    (hold : h.calls[other]? = some old)
    (hself : h'.calls[other]? = some state → Moved h move h' other) : Moved h move h' id := by
  obtain ⟨hlt, -⟩ := List.getElem?_eq_some_iff.mp hold
  by_cases hid : other = id
  · subst hid
    exact hself (by rw [hcalls, List.getElem?_set_self hlt])
  · exact .same (by rw [hcalls, List.getElem?_set_ne hid])

theorem Step.moved (hstep : Step h move h') (id : Nat) : Moved h move h' id := by
  cases hstep with
  | call call =>
      rcases Nat.lt_trichotomy id h.calls.length with hlt | rfl | hgt
      · exact .same (List.getElem?_append_left hlt)
      · exact .arrives call rfl rfl List.getElem?_concat_length
      · refine .same ?_
        rw [List.getElem?_eq_none (by simp; omega), List.getElem?_eq_none (Nat.le_of_lt hgt)]
  | acquire hidle hcall => exact moved_of_set rfl hcall fun hmade => .acquires _ hcall hmade
  | refuse launch hcall hstarted =>
      exact moved_of_set rfl hcall fun hmade => .ends _ _ _ rfl hcall rfl hmade (.refused hstarted)
  | launch hcall hnew =>
      exact moved_of_set rfl hcall fun hmade => .ends _ _ _ rfl hcall rfl hmade (.launched hnew rfl)
  | fail e hcall hnew =>
      exact moved_of_set rfl hcall fun hmade => .ends _ _ _ rfl hcall rfl hmade (.failed e hnew)
  | stop launch hcall =>
      exact moved_of_set rfl hcall fun hmade => .ends _ _ _ rfl hcall rfl hmade .stopped
  | watch launch hcall hstarted =>
      exact moved_of_set rfl hcall fun hmade => .watches hcall hmade
  | neverStarted launch hcall hnew =>
      exact moved_of_set rfl hcall fun hmade => .ends _ _ _ rfl hcall rfl hmade (.neverStarted hnew)
  | observe hcall hexit =>
      exact moved_of_set rfl hcall fun hmade => .ends _ _ _ rfl hcall rfl hmade (.seen _ hexit)
  | supervise hs hwatched => exact .same rfl

theorem Moved.result? (hmoved : Moved h move h' id) (hdone : h.result? id = some result) :
    h'.result? id = some result := by
  have hstate := result?_eq_some_iff.mp hdone
  cases hmoved with
  | same heq => exact result?_eq_some_iff.mpr (heq.trans hstate)
  | arrives call hmove hnew => cases (List.getElem?_eq_none (Nat.le_of_eq hnew.symm)).symm.trans hstate
  | acquires call hcall => cases hcall.symm.trans hstate
  | watches hcall => cases hcall.symm.trans hstate
  | ends call state result hmove hcall hof =>
      obtain rfl := Option.some.inj (hcall.symm.trans hstate)
      cases hof

theorem Moved.ends_of (hmoved : Moved h move h' id) (hopen : h.result? id = none)
    (hdone : h'.result? id = some result) :
    move.caller? = some id ∧ ∃ call state, h.calls[id]? = some state ∧ state.call? = some call ∧
      Ends h h' call result := by
  have hstate := result?_eq_some_iff.mp hdone
  cases hmoved with
  | same heq => cases hopen.symm.trans (result?_eq_some_iff.mpr (heq.symm.trans hstate))
  | arrives call hmove hnew hmade => cases hmade.symm.trans hstate
  | acquires call hcall hmade | watches hcall hmade => cases hmade.symm.trans hstate
  | ends call state result hmove hcall hof hmade hend =>
      cases hmade.symm.trans hstate
      exact ⟨hmove, call, state, hcall, hof, hend⟩

theorem result?_of_run (hrun : h.run moves = some h') (hdone : h.result? id = some result) :
    h'.result? id = some result :=
  run_induction (P := fun h' _ => h'.result? id = some result) hdone
    (fun _ _ _ _ _ ih hstep => (hstep.moved id).result? ih) hrun

/-- A call that ends in the course of some moves ends in one of them. -/
theorem exists_step_of_result? (hrun : h.run moves = some h') (hopen : h.result? id = none)
    (hdone : h'.result? id = some result) :
    ∃ before move after h₁ h₂, moves = before ++ move :: after ∧ h.run before = some h₁ ∧
      Step h₁ move h₂ ∧ h₂.run after = some h' ∧ h₁.result? id = none ∧ h₂.result? id = some result := by
  induction moves generalizing h with
  | nil =>
      obtain rfl := Option.some.inj hrun
      cases hopen.symm.trans hdone
  | cons move rest ih =>
      obtain ⟨next, hmove, hrest⟩ := run_cons.mp hrun
      cases hnext : next.result? id with
      | none =>
          obtain ⟨before, last, after, h₁, h₂, rfl, hbefore, hlast, hafter, hopen₁, hdone₂⟩ :=
            ih hrest hnext
          exact ⟨move :: before, last, after, h₁, h₂, rfl, run_cons.mpr ⟨next, hmove, hbefore⟩, hlast,
            hafter, hopen₁, hdone₂⟩
      | some early =>
          obtain rfl := Option.some.inj ((result?_of_run hrest hnext).symm.trans hdone)
          exact ⟨[], move, rest, h, next, rfl, rfl, step_of_apply hmove, hrest, hopen, hnext⟩

/-! ### Which calls there are -/

theorem getElem?_append_of_eq_some {α : Type} {i : Nat} {a : α} {xs : List α} (h : xs[i]? = some a)
    (ys : List α) : (xs ++ ys)[i]? = some a := by
  obtain ⟨hlt, -⟩ := List.getElem?_eq_some_iff.mp h
  rwa [List.getElem?_append_left hlt]

/-- The calls are those that were made, and the one that has the handle is the one that acts. -/
structure Roster (made : List HandleCall) (h : Handle) : Prop where
  length_eq : h.calls.length = made.length
  made_of : ∀ (id : Nat) (state : CallState) (call : HandleCall), h.calls[id]? = some state →
    state.call? = some call → made[id]? = some call
  holding : ∀ id, h.holder = some id ↔ ∃ call, h.calls[id]? = some (.holding call)

theorem roster_new (node path : String) (args : List String) : Roster [] (new node path args) := by
  constructor <;> simp [new]

theorem Moved.made_of (hmoved : Moved h move h' id) (hroster : Roster made h) {state : CallState}
    (hstate : h'.calls[id]? = some state) (hof : state.call? = some call) :
    (made ++ asked [move])[id]? = some call := by
  have hold : ∀ old, h.calls[id]? = some old → old.call? = some call →
      (made ++ asked [move])[id]? = some call := fun old hcall hof =>
    getElem?_append_of_eq_some (hroster.made_of id old call hcall hof) _
  cases hmoved with
  | same heq => exact hold state (heq.symm.trans hstate) hof
  | arrives new hmove hnew hmade =>
      obtain rfl := Option.some.inj (hmade.symm.trans hstate)
      obtain rfl := Option.some.inj hof
      rw [hnew, hroster.length_eq, asked, List.filterMap_cons, hmove]
      exact List.getElem?_concat_length
  | acquires old hcall hmade =>
      obtain rfl := Option.some.inj (hmade.symm.trans hstate)
      exact hold _ hcall hof
  | watches hcall hmade =>
      obtain rfl := Option.some.inj (hmade.symm.trans hstate)
      exact hold _ hcall hof
  | ends old state' result hmove hcall hof' hmade =>
      obtain rfl := Option.some.inj (hmade.symm.trans hstate)
      cases hof

theorem Roster.holding_finish (hroster : Roster made h) (hcall : h.calls[id]? = some (.holding call))
    {state : CallState} (hstate : ∀ call, state ≠ .holding call) (other : Nat) :
    (h.finish id state).holder = some other ↔
      ∃ call, (h.finish id state).calls[other]? = some (.holding call) := by
  have hholder : h.holder = some id := (hroster.holding id).mpr ⟨call, hcall⟩
  obtain ⟨hlt, -⟩ := List.getElem?_eq_some_iff.mp hcall
  refine ⟨fun hnone => by simp at hnone, fun ⟨held, hheld⟩ => ?_⟩
  by_cases hid : id = other
  · subst hid
    rw [calls_finish, List.getElem?_set_self hlt] at hheld
    exact absurd (Option.some.inj hheld) (hstate held)
  · rw [calls_finish, List.getElem?_set_ne hid] at hheld
    have hother : h.holder = some other := (hroster.holding other).mpr ⟨held, hheld⟩
    exact absurd (Option.some.inj (hholder.symm.trans hother)) hid

theorem Roster.step (hroster : Roster made h) (hstep : Step h move h') :
    Roster (made ++ asked [move]) h' where
  length_eq := by
    cases hstep with
    | supervise hs hwatched => cases hwatched <;> simp [asked, HandleMove.call?, hroster.length_eq]
    | _ => simp [asked, HandleMove.call?, hroster.length_eq]
  made_of id state call hstate hof := (hstep.moved id).made_of hroster hstate hof
  holding := by
    cases hstep with
    | call call =>
        intro other
        rw [hroster.holding other]
        refine ⟨fun ⟨held, hheld⟩ => ⟨held, getElem?_append_of_eq_some hheld _⟩, fun ⟨held, hheld⟩ => ?_⟩
        rw [List.getElem?_append] at hheld
        split at hheld
        next => exact ⟨held, hheld⟩
        next => cases List.mem_singleton.mp (List.mem_of_getElem? hheld)
    | @acquire id call hidle hcall =>
        intro other
        obtain ⟨hlt, -⟩ := List.getElem?_eq_some_iff.mp hcall
        by_cases hid : id = other
        · subst hid
          exact iff_of_true rfl ⟨call, List.getElem?_set_self hlt⟩
        · refine iff_of_false (fun heq => hid (Option.some.inj heq)) fun ⟨held, hheld⟩ => ?_
          rw [List.getElem?_set_ne hid] at hheld
          cases hidle.symm.trans ((hroster.holding other).mpr ⟨held, hheld⟩)
    | refuse launch hcall | fail e hcall | stop launch hcall | watch launch hcall =>
        exact hroster.holding_finish hcall (by simp)
    | launch hcall | neverStarted launch hcall =>
        exact hroster.holding_finish hcall (by simp)
    | @observe id exit hcall hexit =>
        intro other
        obtain ⟨hlt, -⟩ := List.getElem?_eq_some_iff.mp hcall
        rw [hroster.holding other]
        by_cases hid : id = other
        · subst hid
          simp [hcall, List.getElem?_set_self hlt]
        · rw [List.getElem?_set_ne hid]
    | supervise hs hwatched => exact hroster.holding

theorem roster_of_run (hrun : (new node path args).run moves = some h) : Roster (asked moves) h :=
  run_induction (P := fun h moves => Roster (asked moves) h) (roster_new node path args)
    (fun _ _ _ _ _ ih hstep => asked_append _ _ ▸ ih.step hstep) hrun

/-- How a call ends that has not ended yet. -/
theorem exists_end (hbefore : (new node path args).run before = some h) (hafter : h.run after = some h')
    (hcall : (asked (before ++ after))[id]? = some call) (hopen : h.result? id = none)
    (hdone : h'.result? id = some result) :
    ∃ earlier move later h₁ h₂, h.run earlier = some h₁ ∧ Step h₁ move h₂ ∧ h₂.run later = some h' ∧
      h₁.result? id = none ∧ h₂.result? id = some result ∧ Ends h₁ h₂ call result := by
  obtain ⟨earlier, move, later, h₁, h₂, rfl, hearlier, hstep, hlater, hopen₁, hdone₂⟩ :=
    exists_step_of_result? hafter hopen hdone
  obtain ⟨-, found, state, hstate, hof, hend⟩ := (hstep.moved id).ends_of hopen₁ hdone₂
  have hroster : Roster (asked (before ++ earlier)) h₁ :=
    roster_of_run (run_append.mpr ⟨h, hbefore, hearlier⟩)
  have hfound : (asked (before ++ (earlier ++ move :: later)))[id]? = some found := by
    rw [← List.append_assoc, asked_append]
    exact getElem?_append_of_eq_some (hroster.made_of id state found hstate hof) _
  obtain rfl := Option.some.inj (hfound.symm.trans hcall)
  exact ⟨earlier, move, later, h₁, h₂, hearlier, hstep, hlater, hopen₁, hdone₂, hend⟩

theorem exists_end_of_run (hrun : (new node path args).run moves = some h')
    (hcall : (asked moves)[id]? = some call) (hdone : h'.result? id = some result) :
    ∃ earlier move later h₁ h₂, (new node path args).run earlier = some h₁ ∧ Step h₁ move h₂ ∧
      h₂.run later = some h' ∧ h₁.result? id = none ∧ h₂.result? id = some result ∧
      Ends h₁ h₂ call result :=
  exists_end (show (new node path args).run [] = some _ from rfl) hrun hcall rfl hdone

end Handle

end Localnet
