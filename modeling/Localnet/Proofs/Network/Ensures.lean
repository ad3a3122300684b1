import Localnet.Network.World

/-!
# Whatever the host answers

A task is judged over all answers of its host: `World.Ensures P Q task w` says that `P` holds of each
thing that the host is asked for, in the world in which it is asked, and that `Q` holds of the result
and the world at the end. Every run of the task has both.
-/

namespace Localnet.World

variable {α β ε ε' : Type} {P P' : World → HostRequest → Prop} {Q Q' : α → World → Prop}

def Ensures (P : World → HostRequest → Prop) (Q : α → World → Prop) : Task α → World → Prop
  | .done a, w => Q a w
  | Program.ask .registry next, w => Ensures P Q (next w.registry) w
  | Program.ask (.setRegistry r) next, w => Ensures P Q (next ()) { w with registry := r }
  | Program.ask (.host request) next, w =>
    P w request ∧ ∀ answer : request.Answer,
      Ensures P Q (next (w.grant request answer)) (w.record request (w.grant request answer))

/-- No bound on what the host is asked for. -/
def anything : World → HostRequest → Prop := fun _ _ => True

theorem Ensures.mono (hP : ∀ w request, P w request → P' w request)
    (hQ : ∀ a w, Q a w → Q' a w) {task : Task α} {w : World} (h : Ensures P Q task w) :
    Ensures P' Q' task w := by
  induction task generalizing w with
  | done a => exact hQ a w h
  | ask request next ih =>
      cases request with
      | registry => exact ih _ h
      | setRegistry r => exact ih _ h
      | host request => exact ⟨hP _ _ h.1, fun answer => ih _ (h.2 answer)⟩

/-- What a task comes to, whatever it asks for. -/
theorem Ensures.ends {task : Task α} {w : World} (h : Ensures P Q task w)
    (hQ : ∀ a w, Q a w → Q' a w) : Ensures anything Q' task w :=
  h.mono (fun _ _ _ => trivial) hQ

theorem ensures_bind (task : Task α) (f : α → Task β) (Q : β → World → Prop) (w : World) :
    Ensures P Q (task >>= f) w ↔ Ensures P (fun a w' => Ensures P Q (f a) w') task w := by
  induction task generalizing w with
  | done a => rfl
  | ask request next ih =>
      cases request with
      | registry => exact ih _ _
      | setRegistry r => exact ih _ _
      | host request => exact and_congr_right fun _ => forall_congr' fun _ => ih _ _

theorem Ensures.and {task : Task α} {w : World} (h : Ensures P Q task w) (h' : Ensures P' Q' task w) :
    Ensures (fun w request => P w request ∧ P' w request) (fun a w => Q a w ∧ Q' a w) task w := by
  induction task generalizing w with
  | done a => exact ⟨h, h'⟩
  | ask request next ih =>
      cases request with
      | registry => exact ih _ h h'
      | setRegistry r => exact ih _ h h'
      | host request => exact ⟨⟨h.1, h'.1⟩, fun answer => ih _ (h.2 answer) (h'.2 answer)⟩

/-- What every answer keeps of a history holds all along. -/
theorem Ensures.along {I : List Event → Prop} {task : Task α} {w : World} (h : Ensures P Q task w)
    (hw : I w.history)
    (hstep : ∀ (w' : World) (request : HostRequest) (reply : request.Reply), P w' request →
      I w'.history → I (⟨request, reply⟩ :: w'.history)) :
    Ensures (fun w' request => P w' request ∧ I w'.history) (fun a w' => Q a w' ∧ I w'.history)
      task w := by
  induction task generalizing w with
  | done a => exact ⟨h, hw⟩
  | ask request next ih =>
      cases request with
      | registry => exact ih _ h hw
      | setRegistry r => exact ih _ h hw
      | host request =>
          refine ⟨⟨h.1, hw⟩, fun answer => ih _ (h.2 answer) ?_⟩
          exact hstep w request _ h.1 hw

/-- What has happened has happened. -/
theorem ensures_history (task : Task α) (w : World) :
    Ensures (fun w' _ => w.history <:+ w'.history) (fun _ w' => w.history <:+ w'.history) task w := by
  have htask : Ensures anything (fun _ _ => True) task w := by
    induction task generalizing w with
    | done a => trivial
    | ask request next ih =>
        cases request with
        | registry => exact ih _ w
        | setRegistry r => exact ih _ { w with registry := r }
        | host request => exact ⟨trivial, fun answer => ih _ _⟩
  have hsuffix : Ensures (fun w' request => anything w' request ∧ w.history <:+ w'.history)
      (fun _ w' => True ∧ w.history <:+ w'.history) task w :=
    htask.along List.suffix_rfl fun w' request reply _ hw' => hw'.trans (List.suffix_cons _ _)
  exact hsuffix.mono (fun _ _ h => h.2) fun _ _ h => h.2

/-! ### Tasks that may fail -/

/-- What is to hold after a task that may fail: `Q` of a failure, and what `f` says of a result. -/
def orFailed (f : α → World → Prop) (Q : Except ε β → World → Prop) :
    Except ε α → World → Prop
  | .ok a, w => f a w
  | .error e, w => Q (.error e) w

theorem ensures_run_bind (task : ExceptT ε Task α) (f : α → ExceptT ε Task β)
    (Q : Except ε β → World → Prop) (w : World) :
    Ensures P Q (task >>= f).run w ↔
      Ensures P (orFailed (fun a w' => Ensures P Q (f a).run w') Q) task.run w := by
  rw [ExceptT.run_bind, ensures_bind]
  refine ⟨fun h => h.mono (fun _ _ => id) fun r w' hr => ?_,
    fun h => h.mono (fun _ _ => id) fun r w' hr => ?_⟩ <;> cases r <;> exact hr

theorem ensures_run_lift (task : Task α) (Q : Except ε α → World → Prop) (w : World) :
    Ensures P Q (ExceptT.run (liftM task)) w ↔ Ensures P (fun a w' => Q (.ok a) w') task w := by
  change Ensures P Q (Except.ok <$> task) w ↔ _
  rw [← bind_pure_comp, ensures_bind]
  rfl

theorem ensures_run_adapt (f : ε → ε') (task : ExceptT ε Task α)
    (Q : Except ε' α → World → Prop) (w : World) :
    Ensures P Q (ExceptT.adapt f task).run w ↔
      Ensures P (fun r w' => Q (r.mapError f) w') task.run w := by
  change Ensures P Q (Except.mapError f <$> task.run) w ↔ _
  rw [← bind_pure_comp, ensures_bind]
  rfl

theorem ensures_run_map (f : α → β) (task : ExceptT ε Task α) (Q : Except ε β → World → Prop)
    (w : World) :
    Ensures P Q (f <$> task).run w ↔ Ensures P (fun r w' => Q (r.map f) w') task.run w := by
  rw [ExceptT.run_map, ← bind_pure_comp, ensures_bind]
  rfl

/-! ### Runs -/

theorem run_bind (oracle : Oracle) (task : Task α) (f : α → Task β) (w : World) :
    run oracle (task >>= f) w = run oracle (f (run oracle task w).1) (run oracle task w).2 := by
  induction task generalizing w with
  | done a => rfl
  | ask request next ih => cases request <;> exact ih _ _

section

variable {oracle : Oracle} {task : ExceptT ε Task α} {f : α → ExceptT ε Task β} {w w' : World}

theorem run_run_bind_of_ok {a : α} (h : run oracle task.run w = (.ok a, w')) :
    run oracle (task >>= f).run w = run oracle (f a).run w' := by
  rw [ExceptT.run_bind, run_bind, h]

theorem run_run_bind_of_error {e : ε} (h : run oracle task.run w = (.error e, w')) :
    run oracle (task >>= f).run w = (.error e, w') := by
  rw [ExceptT.run_bind, run_bind, h]
  rfl

end

/-- A task that may fail has a result if both of its parts have one. -/
theorem run_run_bind_eq_ok_iff {oracle : Oracle} {task : ExceptT ε Task α} {f : α → ExceptT ε Task β}
    {w w' : World} {b : β} :
    run oracle (task >>= f).run w = (.ok b, w') ↔
      ∃ a w₁, run oracle task.run w = (.ok a, w₁) ∧ run oracle (f a).run w₁ = (.ok b, w') := by
  rw [ExceptT.run_bind, run_bind]
  obtain ⟨result, w₁⟩ := run oracle task.run w
  cases result with
  | ok a =>
      refine ⟨fun h => ⟨a, w₁, rfl, h⟩, fun h => ?_⟩
      obtain ⟨a', w₂, heq, hrest⟩ := h
      cases heq
      exact hrest
  | error e =>
      refine ⟨fun h => ?_, fun h => ?_⟩
      · cases congrArg Prod.fst h
      · obtain ⟨a, w₂, hfirst, -⟩ := h
        cases congrArg Prod.fst hfirst

theorem run_eq_ok_of_isOk {oracle : Oracle} {task : Task (Except ε α)} {w : World}
    (h : (run oracle task w).1.isOk) : ∃ a w', run oracle task w = (.ok a, w') := by
  cases hrun : run oracle task w with
  | mk result w' =>
      rw [hrun] at h
      cases result with
      | ok a => exact ⟨a, w', rfl⟩
      | error e => cases h

theorem Ensures.run {task : Task α} {w : World} (h : Ensures P Q task w) (oracle : Oracle) :
    Q (World.run oracle task w).1 (World.run oracle task w).2 := by
  induction task generalizing w with
  | done a => exact h
  | ask request next ih =>
      cases request with
      | registry => exact ih _ h
      | setRegistry r => exact ih _ h
      | host request => exact ih _ (h.2 _)

/-- All that a run asks the host for, each with the world in which it asks. -/
def asked (oracle : Oracle) : Task α → World → List (World × HostRequest)
  | .done _, _ => []
  | Program.ask .registry next, w => asked oracle (next w.registry) w
  | Program.ask (.setRegistry r) next, w => asked oracle (next ()) { w with registry := r }
  | Program.ask (.host request) next, w =>
    let reply := w.grant request (oracle w.history request)
    (w, request) :: asked oracle (next reply) (w.record request reply)

/-- What a run asks for is what its events are about. -/
theorem map_request_history_run (oracle : Oracle) (task : Task α) (w : World) :
    (run oracle task w).2.history.map (·.request) =
      ((asked oracle task w).map (·.2)).reverse ++ w.history.map (·.request) := by
  induction task generalizing w with
  | done a => rfl
  | ask request next ih =>
      cases request with
      | registry => exact ih _ _
      | setRegistry r => exact ih _ _
      | host request =>
          rw [run, ih, asked]
          simp [record]

theorem Ensures.asked {task : Task α} {w : World} (h : Ensures P Q task w) (oracle : Oracle) :
    ∀ x ∈ asked oracle task w, P x.1 x.2 := by
  induction task generalizing w with
  | done a => simp [World.asked]
  | ask request next ih =>
      cases request with
      | registry => exact ih _ h
      | setRegistry r => exact ih _ h
      | host request =>
          intro x hx
          rcases List.mem_cons.mp hx with rfl | hx
          · exact h.1
          · exact ih _ (h.2 _) x hx

/-- What each answer of a host keeps of a history holds all along a run. -/
theorem kept_along {I : List Event → Prop} {oracle : Oracle}
    (hstep : ∀ (w : World) (request : HostRequest), I w.history →
      I (w.record request (w.grant request (oracle w.history request))).history)
    (task : Task α) {w : World} (hw : I w.history) :
    I (run oracle task w).2.history ∧ ∀ x ∈ World.asked oracle task w, I x.1.history := by
  induction task generalizing w with
  | done a => exact ⟨hw, nofun⟩
  | ask request next ih =>
      cases request with
      | registry => exact ih _ hw
      | setRegistry r => exact ih _ (w := { w with registry := r }) hw
      | host request =>
          obtain ⟨hrun, hasked⟩ := ih _ (hstep w request hw)
          exact ⟨hrun, List.forall_mem_cons.mpr ⟨hw, hasked⟩⟩

end Localnet.World
