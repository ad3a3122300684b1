import Localnet.Proofs.Process.Moves

/-!
# Turns with a handle

A call that waits for the end of a child has given the handle back. No other call waits for it: its turn
comes at once, or after that of the one call which has the handle.
-/

namespace Localnet.Handle

variable {h h' h₁ : Handle} {id : Nat} {call : HandleCall} {move : HandleMove}

/-- A move by which a call gets the handle or acts, with nothing asked of a child, its supervisor or a
call that waits. -/
def IsTurn (launch : Except SystemError Unit) : HandleMove → Prop
  | .acquire _ => True
  | .act _ outcome => outcome = launch
  | .call _ | .observe _ | .childEnds _ | .noticeEnd | .noticeRequest | .reap => False

/-- What a call has come to once it has had its turn. -/
def HasActed (h : Handle) (id : Nat) : HandleCall → Prop
  | .start => (h.result? id).isSome
  | .stop => h.result? id = some (.ok ())
  | .wait => h.calls[id]? = some .watching ∨ (h.result? id).isSome

theorem result?_finish {state : CallState} (hcall : h.calls[id]? = some state)
    (result : Except HandleFault Unit) : (h.finish id (.done result)).result? id = some result :=
  result?_eq_some_iff.mpr (List.getElem?_set_self (List.getElem?_eq_some_iff.mp hcall).1)

theorem hasActed_perform (launch : Except SystemError Unit) (hcall : h.calls[id]? = some (.holding call)) :
    HasActed (h.perform id launch call) id call := by
  cases call with
  | start =>
      refine Option.isSome_iff_exists.mpr ?_
      simp only [perform]
      split
      · exact ⟨_, result?_finish hcall _⟩
      · cases launch with
        | ok _ => exact ⟨_, result?_finish hcall _⟩
        | error e => exact ⟨_, result?_finish hcall _⟩
  | stop => exact result?_finish hcall _
  | wait =>
      simp only [perform]
      split
      · exact .inl (List.getElem?_set_self (List.getElem?_eq_some_iff.mp hcall).1)
      · exact .inr (Option.isSome_iff_exists.mpr ⟨_, result?_finish hcall _⟩)

theorem holder_perform (h : Handle) (id : Nat) (launch : Except SystemError Unit) (call : HandleCall) :
    (h.perform id launch call).holder = none := by
  cases call <;> simp only [perform]
  · split
    · rfl
    · cases launch <;> rfl
  · rfl
  · split <;> rfl

theorem getElem?_perform_of_ne {other : Nat} (hne : id ≠ other) (launch : Except SystemError Unit)
    (call : HandleCall) : (h.perform id launch call).calls[other]? = h.calls[other]? := by
  have hset : ∀ state, (h.calls.set id state)[other]? = h.calls[other]? := fun _ =>
    List.getElem?_set_ne hne
  cases call <;> simp only [perform]
  · split
    · exact hset _
    · cases launch <;> exact hset _
  · exact hset _
  · split <;> exact hset _

/-- Some turns at the end of which a call has had its own, and the calls that wait still do. -/
structure TurnsTo (launch : Except SystemError Unit) (h : Handle) (turns : List HandleMove) (h' : Handle)
    (id : Nat) (call : HandleCall) : Prop where
  all_turns : ∀ move ∈ turns, IsTurn launch move
  run : h.run turns = some h'
  acted : HasActed h' id call
  waiting : ∀ other : Nat, h.calls[other]? = some .watching → h'.calls[other]? = some .watching

theorem TurnsTo.cons {launch : Except SystemError Unit} {turns : List HandleMove} (hturn : IsTurn launch move)
    (hmove : h.apply move = some h₁)
    (hwaiting : ∀ other : Nat, h.calls[other]? = some .watching → h₁.calls[other]? = some .watching)
    (hrest : TurnsTo launch h₁ turns h' id call) : TurnsTo launch h (move :: turns) h' id call where
  all_turns := List.forall_mem_cons.mpr ⟨hturn, hrest.all_turns⟩
  run := run_cons.mpr ⟨h₁, hmove, hrest.run⟩
  acted := hrest.acted
  waiting other := hrest.waiting other ∘ hwaiting other

theorem apply_act (launch : Except SystemError Unit) (hcall : h.calls[id]? = some (.holding call)) :
    h.apply (.act id launch) = some (h.perform id launch call) := by
  simp only [apply, hcall]

theorem apply_acquire (hidle : h.holder = none) (hcall : h.calls[id]? = some (.queued call)) :
    h.apply (.acquire id) =
      some { h with holder := some id, calls := h.calls.set id (.holding call) } := by
  simp only [apply, hidle, hcall]

theorem watching_of_perform {other : Nat} (launch : Except SystemError Unit)
    (hcall : h.calls[id]? = some (.holding call)) (hother : h.calls[other]? = some .watching) :
    (h.perform id launch call).calls[other]? = some .watching := by
  have hne : id ≠ other := by
    rintro rfl
    cases hcall.symm.trans hother
  rw [getElem?_perform_of_ne hne, hother]

theorem turnsTo_of_holding (launch : Except SystemError Unit)
    (hcall : h.calls[id]? = some (.holding call)) :
    TurnsTo launch h [.act id launch] (h.perform id launch call) id call where
  all_turns := by simp [IsTurn]
  run := run_cons.mpr ⟨_, apply_act launch hcall, rfl⟩
  acted := hasActed_perform launch hcall
  waiting _ := watching_of_perform launch hcall

theorem exists_turnsTo_of_idle (launch : Except SystemError Unit) (hidle : h.holder = none)
    (hcall : h.calls[id]? = some (.queued call)) :
    ∃ h', TurnsTo launch h [.acquire id, .act id launch] h' id call := by
  have hholding : (h.calls.set id (.holding call))[id]? = some (.holding call) :=
    List.getElem?_set_self (List.getElem?_eq_some_iff.mp hcall).1
  refine ⟨_, .cons trivial (apply_acquire hidle hcall) (fun other hother => ?_)
    (turnsTo_of_holding launch hholding)⟩
  have hne : id ≠ other := by
    rintro rfl
    cases hcall.symm.trans hother
  exact (List.getElem?_set_ne hne).trans hother

/-- A call gets its turn at once, or after the one call that has the handle. -/
theorem exists_turnsTo {made : List HandleCall} (hroster : Roster made h)
    (launch : Except SystemError Unit)
    (hcall : h.calls[id]? = some (.queued call) ∨ h.calls[id]? = some (.holding call)) :
    ∃ turns h', turns.length ≤ 3 ∧ TurnsTo launch h turns h' id call := by
  rcases hcall with hqueued | hholding
  · cases hholder : h.holder with
    | none =>
        obtain ⟨h', hturns⟩ := exists_turnsTo_of_idle launch hholder hqueued
        exact ⟨_, h', by simp, hturns⟩
    | some other =>
        obtain ⟨held, hheld⟩ := (hroster.holding other).mp hholder
        have hne : other ≠ id := by
          rintro rfl
          cases hqueued.symm.trans hheld
        have hidle := holder_perform h other launch held
        obtain ⟨h', hturns⟩ := exists_turnsTo_of_idle launch hidle
          ((getElem?_perform_of_ne hne launch held).trans hqueued)
        have hturn : IsTurn launch (.act other launch) := rfl
        exact ⟨_, h', by simp, .cons hturn (apply_act launch hheld)
          (fun _ => watching_of_perform launch hheld) hturns⟩
  · exact ⟨_, _, by simp, turnsTo_of_holding launch hholding⟩

end Localnet.Handle
