import Localnet.Proofs.Network.Life

/-!
# Additions that fail

An addition that fails leaves the registry as it was, but for the number of the next generated name. It
asks nothing of the processes and clients that were there before, and if its own process had started by
then, that process is asked to stop.
-/

namespace Localnet

open Network (afterNaming)

/-- The process that a request starts or stops. -/
def HostRequest.process? : HostRequest → Option Process
  | .start process | .stop process => some process
  | .identity | .unusedPort | .makeRoot | .makeDir _ | .writeFile _ _ | .launch _ _
  | .connect _ _ _ _ | .close _ => none

/-- The client that a request closes. -/
def HostRequest.client? : HostRequest → Option Client
  | .close client => some client
  | .identity | .unusedPort | .makeRoot | .makeDir _ | .writeFile _ _ | .launch _ _ | .start _
  | .stop _ | .connect _ _ _ _ => none

/-- What is asked for while a node is set up: no client is closed, the processes are ones that had no
number before, and one of them at most starts. -/
structure KeepsToItself (known : Nat) (events : List Event) : Prop where
  closesNone : ∀ e ∈ events, e.request.client? = none
  fresh : ∀ e ∈ events, ∀ process, e.request.process? = some process → known ≤ process.number
  started : (events.filterMap processes.opened).length ≤ 1

namespace KeepsToItself

variable {known : Nat} {events : List Event} {request : HostRequest} {reply : request.Reply}

theorem nil : KeepsToItself known [] := by
  constructor <;> simp

theorem cons (h : KeepsToItself known events) (hclient : request.client? = none)
    (hprocess : ∀ process, request.process? = some process → known ≤ process.number)
    (hstarted : processes.opened ⟨request, reply⟩ = none ∨
      events.filterMap processes.opened = []) :
    KeepsToItself known (⟨request, reply⟩ :: events) where
  closesNone := List.forall_mem_cons.mpr ⟨hclient, h.closesNone⟩
  fresh := List.forall_mem_cons.mpr ⟨hprocess, h.fresh⟩
  started := by
    rcases hstarted with hnone | hempty
    · rw [List.filterMap_cons_none hnone]
      exact h.started
    · rw [List.filterMap_cons, hempty]
      split <;> simp

end KeepsToItself

theorem filterMap_opened_of_isPreparation {events : List Event}
    (h : ∀ e ∈ events, e.request.isPreparation) : events.filterMap processes.opened = [] := by
  refine List.filterMap_eq_nil_iff.mpr fun e he => ?_
  have hrequest := h e he
  obtain ⟨request, reply⟩ := e
  cases request <;> first | rfl | cases hrequest

theorem keepsToItself_of_isPreparation {known : Nat} {events : List Event}
    (h : ∀ e ∈ events, e.request.isPreparation) : KeepsToItself known events := by
  refine ⟨fun e he => ?_, fun e he process hprocess => ?_, ?_⟩
  · have hrequest := h e he
    cases hkind : e.request <;> first | rfl | simp [hkind, HostRequest.isPreparation] at hrequest
  · have hrequest := h e he
    cases hkind : e.request <;> rw [hkind] at hrequest hprocess <;> cases hrequest <;> cases hprocess
  · rw [filterMap_opened_of_isPreparation h]
    exact Nat.zero_le 1

section

variable {network : Network} {w w' : World}

/-- A set-up keeps to itself, however it ends. -/
theorem SetUpEnd.keepsToItself {isPlan : Plan → Prop} {result : Except Failure Node}
    (h : SetUpEnd network isPlan w result w') :
    ∃ events, w'.history = events ++ w.history ∧ KeepsToItself w.history.length events := by
  -- up to the start of its process, a set-up starts nothing
  have hlaunched : ∀ {w' : World} (plan : Plan) (reply : Except Failure Process), w.Prepared w' →
      ∃ events, (plan.launch network w' reply).history = events ++ w.history ∧
        KeepsToItself w.history.length events ∧ events.filterMap processes.opened = [] ∧
        w.history.length ≤ (plan.processIn w').number := by
    rintro w' plan reply ⟨-, events, hevents, hhistory⟩
    refine ⟨_ :: events, congrArg _ hhistory, ?_, ?_, ?_⟩
    · exact (keepsToItself_of_isPreparation hevents).cons rfl nofun (.inl rfl)
    · exact (List.filterMap_cons_none rfl).trans (filterMap_opened_of_isPreparation hevents)
    · simp [Plan.processIn, World.nextHandle, hhistory]
  have hstarted : ∀ {w' : World} (plan : Plan) (reply : Except Failure Unit), w.Prepared w' →
      ∃ events, (plan.start network w' reply).history = events ++ w.history ∧
        KeepsToItself w.history.length events ∧
        w.history.length ≤ (plan.processIn w').number := by
    intro w' plan reply hw
    obtain ⟨events, hhistory, hkeeps, hnone, hnumber⟩ := hlaunched plan (.ok (plan.processIn w')) hw
    refine ⟨_ :: events, congrArg _ hhistory, hkeeps.cons rfl ?_ (.inr hnone), hnumber⟩
    intro process hprocess
    obtain rfl := Option.some.inj hprocess
    exact hnumber
  cases h with
  | unprepared hw =>
      obtain ⟨-, events, hevents, hhistory⟩ := hw
      exact ⟨events, hhistory, keepsToItself_of_isPreparation hevents⟩
  | @unlaunched _ plan e hw _ =>
      obtain ⟨events, hhistory, hkeeps, -⟩ := hlaunched plan (.error e) hw
      exact ⟨events, hhistory, hkeeps⟩
  | @unstarted _ plan e hw _ =>
      obtain ⟨events, hhistory, hkeeps, -⟩ := hstarted plan (.error e) hw
      exact ⟨events, hhistory, hkeeps⟩
  | @unconnected w' plan e reply hw _ =>
      obtain ⟨events, hhistory, hkeeps, hnumber⟩ := hstarted plan (.ok ()) hw
      have hconnect : KeepsToItself w.history.length
          (⟨.connect plan.name localhost plan.httpPort Network.requestTimeout, .error e⟩ :: events) :=
        hkeeps.cons rfl nofun (.inl rfl)
      have hstop : KeepsToItself w.history.length (⟨.stop (plan.processIn w'), reply⟩ :: _) :=
        hconnect.cons rfl (fun _ hprocess => Option.some.inj hprocess ▸ hnumber) (.inl rfl)
      exact ⟨_ :: _ :: events, congrArg (List.cons _) (congrArg (List.cons _) hhistory), hstop⟩
  | @ready _ plan hw _ =>
      obtain ⟨events, hhistory, hkeeps, -⟩ := hstarted plan (.ok ()) hw
      exact ⟨_ :: events, congrArg _ hhistory, hkeeps.cons rfl nofun (.inl rfl)⟩

/-- An addition that fails leaves the registry as it was when the name was chosen, or as it was. -/
theorem AddEnd.of_error {config : NodeConfig} {e : NetworkError}
    (h : AddEnd network config w (.error e) w') :
    (w'.registry = w.registry ∨ w'.registry = afterNaming config w.registry) ∧
      ∃ events, w'.history = events ++ w.history ∧ KeepsToItself w.history.length events := by
  cases h with
  | stopped _ => exact ⟨.inl rfl, [], rfl, .nil⟩
  | invalid _ _ => exact ⟨.inl rfl, [], rfl, .nil⟩
  | duplicate _ _ _ => exact ⟨.inr rfl, [], rfl, .nil⟩
  | started _ _ _ hend =>
      cases hend with
      | failed hend => exact ⟨.inr hend.registry_eq, hend.keepsToItself⟩

/-! ### The number of the next generated name -/

/-- A call never lowers the number of the next generated name, and only the addition of a valid node
without a name raises it. -/
structure Numbers (network : Network) (call : Call) (w w' : World) : Prop where
  le : w.registry.nextNumber ≤ w'.registry.nextNumber
  changed : w'.registry.nextNumber ≠ w.registry.nextNumber →
    ∃ config, call = .add config ∧ config.name = "" ∧ (network.checked config).isOk

theorem Numbers.of_eq {call : Call} (h : w'.registry.nextNumber = w.registry.nextNumber) :
    Numbers network call w w' :=
  ⟨Nat.le_of_eq h.symm, fun hne => absurd h hne⟩

theorem AddEnd.numbers {config : NodeConfig} {result : Except NetworkError Node}
    (h : AddEnd network config w result w') : Numbers network (.add config) w w' := by
  have hnamed : ∀ {valid : ValidatedNode}, network.checked config = .ok valid →
      w'.registry.nextNumber = (afterNaming config w.registry).nextNumber →
      Numbers network (.add config) w w' := by
    intro valid hvalid heq
    unfold afterNaming at heq
    by_cases hname : config.name = ""
    · rw [if_pos hname] at heq
      refine ⟨heq ▸ Nat.le_of_lt (Names.lt_nextFree _ _), fun _ => ⟨config, rfl, hname, ?_⟩⟩
      rw [hvalid]
      rfl
    · rw [if_neg hname] at heq
      exact .of_eq heq
  cases h with
  | stopped _ => exact .of_eq rfl
  | invalid _ _ => exact .of_eq rfl
  | duplicate _ hvalid _ => exact hnamed hvalid rfl
  | started _ hvalid _ hend =>
      cases hend with
      | failed hend => exact hnamed hvalid (congrArg Registry.nextNumber hend.registry_eq)
      | registered hend =>
          have hnumber := congrArg Registry.nextNumber hend.registry_eq
          exact hnamed hvalid hnumber

theorem ensures_numbers (network : Network) (call : Call) (w : World) :
    w.Ensures World.anything (fun _ w' => Numbers network call w w') (call.operation network).run := by
  cases call with
  | add config =>
      rw [Call.operation, World.ensures_run_map]
      exact (network.ensures_add config w).ends fun _ _ hend => hend.numbers
  | remove name =>
      rw [Call.operation, World.ensures_run_map]
      refine (Network.ensures_remove name w).ends fun _ _ hend => ?_
      cases hend <;> exact .of_eq rfl
  | get name =>
      rw [Call.operation, World.ensures_run_map]
      exact Network.ensures_find (fun _ => .of_eq rfl) (fun _ _ => .of_eq rfl) fun _ _ _ => .of_eq rfl
  | names =>
      rw [Call.operation, World.ensures_run_map, Network.nodeNames, World.ensures_run_bind]
      exact Network.ensures_running (fun _ => .of_eq rfl) fun _ => .of_eq rfl
  | all =>
      rw [Call.operation, World.ensures_run_map, Network.allNodes, World.ensures_run_bind]
      exact Network.ensures_running (fun _ => .of_eq rfl) fun _ => .of_eq rfl
  | stop =>
      rw [Call.operation, World.ensures_run_map]
      refine (Network.ensures_stop w).ends fun _ _ hend => ?_
      cases hend <;> exact .of_eq rfl

/-! ### What a failure leaves -/

/-- A world that was left as it was: in the registry nothing but the number of the next generated name
has changed, nothing was asked of the process or the client of any node, whether registered or not any
more, and a process that was started in the meantime was asked to stop once. -/
structure LeftAsItWas (w w' : World) : Prop where
  registry : w'.registry = { w.registry with nextNumber := w'.registry.nextNumber }
  requests : ∃ events, w'.history = events ++ w.history ∧
    (∀ node : Node, node ∈ w.registry.nodes.values ∨ Serves w.history node.client node.process →
      ∀ e ∈ events, e.request.process? ≠ some node.process ∧ e.request.client? ≠ some node.client) ∧
    (events.filterMap processes.opened).length ≤ 1 ∧
    ∀ process ∈ events.filterMap processes.opened, timesOf processes.closed process w'.history = 1

theorem Serves.number_lt {roll : List Node} {history : List Event} {client : Client}
    {process : Process} (h : Serves history client process) (hbooks : Books roll history) :
    process.number < history.length := by
  by_contra hle
  have hzero := hbooks.processes.timesOf_opened_eq_zero (x := process) (Nat.le_of_not_lt hle)
  have hpos := h.timesOf_pos
  omega

theorem KeepsToItself.timesOf_closed_eq_one {roll : List Node} {history events : List Event}
    {process : Process} (h : KeepsToItself history.length events) (hbooks : Books roll history)
    (hbooks' : Books roll (events ++ history))
    (hprocess : process ∈ events.filterMap processes.opened) :
    timesOf processes.closed process (events ++ history) = 1 := by
  obtain ⟨e, he, hopened⟩ := List.mem_filterMap.mp hprocess
  have hpos := timesOf_pos_of_mem (List.mem_append_left history he) hopened
  have hnumber : history.length ≤ process.number := by
    refine h.fresh e he process ?_
    obtain ⟨request, reply⟩ := e
    cases request with
    | start other => cases reply <;> cases hopened; rfl
    | _ => cases hopened
  rcases hbooks'.processes.settled process with ⟨hheld, -⟩ | ⟨-, heq, hle⟩
  · -- what the roll held before the call has a number from before it
    have hlt := hbooks.processes.number_lt hheld
    exact absurd hlt (Nat.not_lt.mpr hnumber)
  · omega

theorem AddEnd.leftAsItWas {roll : List Node} {config : NodeConfig} {e : NetworkError}
    (hw : w.InOrder roll) (h : AddEnd network config w (.error e) w') : LeftAsItWas w w' := by
  obtain ⟨hregistry, events, hhistory, hkeeps⟩ := h.of_error
  have hw' : w'.InOrder roll := by simpa [newcomers] using h.inOrder hw
  refine ⟨?_, events, hhistory, fun node hnode event hevent => ⟨fun hprocess => ?_, ?_⟩,
    hkeeps.started, fun process hprocess => ?_⟩
  · rcases hregistry with heq | heq <;> rw [heq]
    unfold afterNaming
    split <;> rfl
  · have hserves : Serves w.history node.client node.process :=
      hnode.elim (fun hmem => hw.books.served node (hw.enrolled.values.mem_iff.mpr hmem)) id
    have hlt := hserves.number_lt hw.books
    have hle := hkeeps.fresh event hevent _ hprocess
    omega
  · rw [hkeeps.closesNone event hevent]
    exact (Option.some_ne_none node.client).symm
  · rw [hhistory]
    exact hkeeps.timesOf_closed_eq_one hw.books (hhistory ▸ hw'.books) hprocess

end

/-- **A failed addition.** It leaves the network as it was, and the number of the next generated name
is the only thing that it may have changed. -/
theorem leftAsItWas_of_failed_add {network : Network} {w : World} (h : Reached network w)
    (oracle : World.Oracle) :
    (∀ call : Call, Numbers network call w (World.run oracle (call.operation network).run w).2) ∧
    ∀ config e w', World.run oracle (network.add config).run w = (.error e, w') →
      LeftAsItWas w w' := by
  obtain ⟨roll, hroll⟩ := h.inOrder
  refine ⟨fun call => (ensures_numbers network call w).run oracle, fun config e w' hrun => ?_⟩
  have hend := (network.ensures_add config w).run oracle
  rw [hrun] at hend
  exact hend.leftAsItWas hroll

/-- A host that hands out no clients. -/
def clientlessHost : World.Oracle := fun history request =>
  match request with
  | .connect _ _ _ _ => .error ⟨"refused", []⟩
  | request => willingHost history request

theorem leftAsItWas_of_clientless_add :
    ∃ (network : Network) (w : World) (e : NetworkError) (w' : World),
      World.run willingHost (Network.create soloConfig).run .blank = (.ok network, w) ∧
      Reached network w ∧
      World.run clientlessHost (network.add (plainNode "b")).run w = (.error e, w') ∧
      LeftAsItWas w w' := by
  have hends :
      (match World.run willingHost (Network.create soloConfig).run .blank with
        | (.ok network, w) =>
          !(World.run clientlessHost (network.add (plainNode "b")).run w).1.isOk
        | (.error _, _) => false) = true := by
    decide +kernel
  split at hends
  next network w hcreate =>
    have hidle : (Machine.start network 500 0 w).run [] = some (.start network 500 0 w) := rfl
    have hreached : Reached network w := .mk hcreate hidle rfl
    cases hadd : World.run clientlessHost (network.add (plainNode "b")).run w with
    | mk result w' =>
        rw [hadd] at hends
        cases result with
        | ok node => cases hends
        | error e =>
            refine ⟨network, w, e, w', hcreate, hreached, hadd, ?_⟩
            exact (leftAsItWas_of_failed_add hreached clientlessHost).2 _ e w' hadd
  next => cases hends

end Localnet
