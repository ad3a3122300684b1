import Localnet.Proofs.Network.Lookups
import Localnet.Proofs.Network.Turns

/-!
# Calls that come at once

Calls of a network may come at any time, and the host may take its time with every one of them. The calls
come to what they come to when they are made one after the other, in the order in which they get the
registry. So nobody sees a node that is not up yet or is being shut down, and among calls that add a
node under one name the first one gets it.
-/

namespace Localnet

variable {network : Network} {oracle : World.Oracle} {call : Call}
  {result : Except NetworkError Answer} {log : List Deed} {roll : List Node} {served : List Served}
  {w w' : World} {name : String} {node : Node}

/-! ### What a call shows -/

/-- The nodes in an answer. -/
def shown : Except NetworkError Answer → List Node
  | .ok (.node node) => [node]
  | .ok (.nodes nodes) => nodes.values
  | .ok .done | .ok (.names _) | .error _ => []

theorem mem_rollAfter_of_mem_shown (h : w.InOrder roll)
    (hperform : network.perform oracle call w = (result, w')) (hnode : node ∈ shown result) :
    node ∈ call.rollAfter result roll := by
  have hrunning : w.registry.stopped = false := by
    refine Bool.eq_false_iff.mpr fun hstopped => ?_
    have hresult := ((ensures_call_of_stopped network call hstopped).run oracle).1
    rw [show World.run oracle _ w = _ from hperform] at hresult
    cases hresult
    cases hnode
  cases call with
  | add config =>
      obtain ⟨result', _, hadd, -⟩ := perform_add network oracle config w
      cases hperform.symm.trans hadd
      cases result' with
      | ok new => exact List.mem_append_right _ hnode
      | error e => cases hnode
  | remove name =>
      obtain ⟨result', _, hremove, -⟩ := perform_remove network oracle name w
      cases hperform.symm.trans hremove
      cases result' <;> cases hnode
  | get name =>
      cases hperform.symm.trans (perform_get hrunning oracle name)
      cases hget : w.registry.nodes.get? name with
      | none =>
          rw [hget] at hnode
          cases hnode
      | some found =>
          rw [hget] at hnode
          obtain rfl := List.mem_singleton.mp hnode
          refine h.enrolled.values.mem_iff.mpr ?_
          exact List.mem_map_of_mem (f := Prod.snd) (Table.mem_of_get?_eq_some hget)
  | names =>
      cases hperform.symm.trans (perform_names hrunning oracle)
      cases hnode
  | all =>
      cases hperform.symm.trans (perform_all hrunning oracle)
      exact h.enrolled.values.mem_iff.mpr hnode
  | stop =>
      have hstop : w.Ensures World.anything (fun result _ => shown result = [])
          (Call.stop.operation network).run := by
        rw [Call.operation, World.ensures_run_map]
        refine (Network.ensures_stop w).ends fun result _ _ => ?_
        cases result <;> rfl
      have hnil := hstop.run oracle
      rw [show World.run oracle _ w = _ from hperform] at hnil
      rw [hnil] at hnode
      cases hnode

/-- A node in an answer is up. -/
theorem leftRunning_of_mem_shown (h : w.InOrder roll)
    (hperform : network.perform oracle call w = (result, w')) (hnode : node ∈ shown result) :
    LeftRunning node w'.history :=
  (h.perform hperform).leftRunning (mem_rollAfter_of_mem_shown h hperform hnode)

/-! ### Additions under one name -/

/-- A call is to add a valid node under a name. -/
def Call.Adds (network : Network) (name : String) (call : Call) : Prop :=
  ∃ config valid, call = .add config ∧ config.name = name ∧ network.checked config = .ok valid

/-- Whether there is a node under a name is none of a call's business. -/
def Call.Spares (network : Network) (name : String) : Call → Prop
  | .add config =>
    if config.name = "" then ∀ n, Names.generated n ≠ name
    else config.name = name → ∃ e, network.checked config = .error e
  | .remove other => other ≠ name
  | .get _ | .names | .all => True
  | .stop => False

/-- Of the calls that are to add a valid node under a name, the first one does, and all that come later
are refused. -/
def OneAdded (network : Network) (name : String) (served : List Served) : Prop :=
  ∃ before winner after, served = before ++ winner :: after ∧
    (∀ x ∈ before, ¬ x.call.Adds network name) ∧ winner.call.Adds network name ∧
    (∃ node, winner.result = .ok (.node node) ∧ node.name = name) ∧
    ∀ x ∈ after, x.call.Adds network name →
      x.result = .error (.invalid (.duplicateName name))

theorem Call.Spares.ne_stop (h : call.Spares network name) : call ≠ .stop := by
  rintro rfl
  exact h

theorem Call.Adds.ne_stop (h : call.Adds network name) : call ≠ .stop := by
  obtain ⟨config, valid, rfl, -, -⟩ := h
  exact nofun

theorem Call.Spares.not_adds (h : call.Spares network name) (hname : name ≠ "") :
    ¬ call.Adds network name := by
  rintro ⟨config, valid, rfl, hconfig, hvalid⟩
  rw [Call.Spares, if_neg (hconfig ▸ hname)] at h
  obtain ⟨e, he⟩ := h hconfig
  cases hvalid.symm.trans he

theorem Call.Spares.deed_name_ne (h : call.Spares network name)
    (hperform : network.perform oracle call w = (result, w')) :
    ∀ deed ∈ call.deeds result, deed.name ≠ name := by
  intro deed hdeed hname
  rcases deeds_eq_or hperform with hnil | ⟨_, hsingle, hsubject⟩
  · rw [hnil] at hdeed
    cases hdeed
  rw [hsingle] at hdeed
  obtain rfl := List.mem_singleton.mp hdeed
  rw [hname] at hsubject
  cases call with
  | add config =>
      have hchosen : Network.chosenName config w.registry = name := Option.some.inj hsubject
      by_cases hempty : config.name = ""
      · rw [Call.Spares, if_pos hempty] at h
        rw [Network.chosenName, if_pos hempty] at hchosen
        exact h _ hchosen
      · rw [Call.Spares, if_neg hempty] at h
        rw [Network.chosenName, if_neg hempty] at hchosen
        obtain ⟨e, he⟩ := h hchosen
        obtain ⟨result', _, hadd, hend⟩ := perform_add network oracle config w
        cases hperform.symm.trans hadd
        cases hend with
        | stopped _ => cases hsingle
        | invalid _ _ => cases hsingle
        | duplicate _ hvalid _ => cases hvalid.symm.trans he
        | started _ hvalid _ _ => cases hvalid.symm.trans he
  | remove other => exact h (Option.some.inj hsubject)
  | get _ => cases hsingle
  | names => cases hsingle
  | all => cases hsingle
  | stop => exact h

/-- A call that spares a name leaves it taken, or free. -/
theorem Call.Spares.registered_iff (h : call.Spares network name)
    (hperform : network.perform oracle call w = (result, w')) :
    Registered (log ++ call.deeds result) name ↔ Registered log name := by
  have hne := h.deed_name_ne hperform
  rcases deeds_eq_or hperform with hnil | ⟨deed, hsingle, -⟩
  · rw [hnil, List.append_nil]
  · rw [hsingle, List.forall_mem_singleton] at hne
    rw [hsingle, registered_concat]
    constructor
    · rintro (⟨node, rfl, hnode⟩ | ⟨hregistered, -⟩)
      · exact absurd hnode hne
      · exact hregistered
    · refine fun hregistered => .inr ⟨hregistered, ?_⟩
      rintro rfl
      exact hne rfl

/-- A name that is taken stays so, and whoever comes later is refused. -/
theorem refused_of_replays (hname : name ≠ "") (hlogged : Logged log w) (htaken : Registered log name)
    (hserved : ∀ x ∈ served, x.call.Adds network name ∨ x.call.Spares network name)
    (h : Replays network oracle w served w') :
    ∀ x ∈ served, x.call.Adds network name → x.result = .error (.invalid (.duplicateName name)) := by
  induction served generalizing log w with
  | nil => exact fun x hx => absurd hx List.not_mem_nil
  | cons first rest ih =>
      obtain ⟨w₁, hfirst, hrest⟩ := replays_cons_iff.mp h
      rw [List.forall_mem_cons] at hserved ⊢
      obtain ⟨hadds | hspares, hserved⟩ := hserved
      · obtain ⟨config, valid, hcall, rfl, hvalid⟩ := hadds
        rw [hcall, hlogged.add_of_registered hname hvalid htaken] at hfirst
        obtain ⟨hresult, rfl⟩ := Prod.mk.inj hfirst
        exact ⟨fun _ => hresult.symm, ih hlogged htaken hserved hrest⟩
      · have hlogged' := hlogged.perform hspares.ne_stop hfirst
        have htaken' := (hspares.registered_iff hfirst).mpr htaken
        exact ⟨fun hadds => absurd hadds (hspares.not_adds hname), ih hlogged' htaken' hserved hrest⟩

theorem oneAdded_of_replays (hname : name ≠ "") (hlogged : Logged log w)
    (hfree : ¬ Registered log name)
    (hserved : ∀ x ∈ served, x.call.Adds network name ∨ x.call.Spares network name)
    (hstarts : ∀ x ∈ served, x.call.Adds network name → ∀ e, x.result ≠ .error (.start name e))
    (hsome : ∃ x ∈ served, x.call.Adds network name) (h : Replays network oracle w served w') :
    OneAdded network name served := by
  induction served generalizing log w with
  | nil =>
      obtain ⟨x, hx, -⟩ := hsome
      cases hx
  | cons first rest ih =>
      obtain ⟨w₁, hfirst, hrest⟩ := replays_cons_iff.mp h
      rw [List.forall_mem_cons] at hserved hstarts
      obtain ⟨hcall, hserved⟩ := hserved
      rcases hcall with hadds | hspares
      · have hlogged' := hlogged.perform hadds.ne_stop hfirst
        obtain ⟨config, valid, hcall, rfl, hvalid⟩ := id hadds
        rw [hcall] at hfirst
        have hresult : ∃ node, first.result = .ok (.node node) ∧ node.name = config.name := by
          have hend := hlogged.add_of_not_registered hname hvalid hfree oracle
          rw [hfirst] at hend
          exact hend.resolve_right fun ⟨e, he⟩ => hstarts.1 hadds e he
        obtain ⟨node, hok, hnode⟩ := id hresult
        rw [hcall, hok] at hlogged'
        have htaken : Registered (log ++ [.registered node]) config.name :=
          registered_concat.mpr (.inl ⟨node, rfl, hnode⟩)
        exact ⟨[], first, rest, rfl, fun x hx => absurd hx List.not_mem_nil, hadds, hresult,
          refused_of_replays hname hlogged' htaken hserved hrest⟩
      · have hlogged' := hlogged.perform hspares.ne_stop hfirst
        have hfree' := mt (hspares.registered_iff hfirst).mp hfree
        have hnot := hspares.not_adds hname
        have hsome' : ∃ x ∈ rest, x.call.Adds network name := by
          obtain ⟨x, hx, hadds⟩ := hsome
          rcases List.mem_cons.mp hx with rfl | hx
          · exact absurd hadds hnot
          · exact ⟨x, hx, hadds⟩
        obtain ⟨before, winner, after, rfl, hbefore, hwinner⟩ :=
          ih hlogged' hfree' hserved hstarts.2 hsome' hrest
        exact ⟨first :: before, winner, after, rfl, List.forall_mem_cons.mpr ⟨hnot, hbefore⟩, hwinner⟩

/-! ### All calls of a run -/

namespace Machine

/-- Some calls were served in the course of some moves, and all the moves come to is what these calls come
to when they are made one after the other. -/
structure Serialised (network : Network) (s : Machine) (moves : List Move) (m : Machine)
    (served : List Served) : Prop where
  /-- They got the registry in this order, and no other call did but one that still has it. -/
  order : ∃ held, (looks s moves).filter (·.isCall) = served.map (·.look) ++ held ∧
    held.map (·.thread) = m.holder.toList
  made : ∀ x ∈ served, madeBy? (arrivals moves) x.look.thread = some x.call
  once : (served.map (·.look.thread)).Nodup
  results : ∀ x ∈ served, m.result? x.look.thread = some x.result
  complete : ∀ id call, madeBy? (arrivals moves) id = some call →
    (∀ x ∈ served, x.look.thread ≠ id) → m.result? id = none
  /-- There is a host that would have given all answers at once. -/
  explained : ∃ oracle, Explains oracle s.world.history m.world.history
  /-- With any such host, each call comes to the same by itself, in the world that it found. -/
  own : ∀ oracle, Explains oracle s.world.history m.world.history → ∀ x ∈ served,
    network.perform oracle x.call x.look.network.world = (x.result, x.after)
  /-- Each of them found the world that the one before it left; the last one left the world as it is. -/
  linked : ∃ w, Linked s.world served w ∧ (m.holder = none → w = m.world)
  /-- With any such host, the calls come to the same one after the other. -/
  serial : ∀ oracle, Explains oracle s.world.history m.world.history → ∃ w,
    World.run oracle (network.callAll (served.map (·.call))) s.world = (served.map (·.result), w) ∧
      (m.holder = none → w = m.world)
  /-- Whoever looks at the registry, a call or a wait, sees nodes that are up. -/
  seen : ∀ look ∈ looks s moves, ∀ node ∈ look.nodes, LeftRunning node look.network.world.history
  answered : ∀ x ∈ served, ∀ node ∈ shown x.result, LeftRunning node x.after.history
  /-- Of the calls for one name that was free, if all that are started do start, one is granted. -/
  oneAdded : ∀ name, name ≠ "" → name ∉ s.world.registry.nodes.names →
    (∀ x ∈ served, x.call.Adds network name ∨ x.call.Spares network name) →
    (∀ x ∈ served, x.call.Adds network name → ∀ e, x.result ≠ .error (.start name e)) →
    (∃ x ∈ served, x.call.Adds network name) → OneAdded network name served

variable {made : List (Option Call)} {looked : List Look} {look : Look} {m : Machine}
  {moves : List Move} {interval now : Nat}

theorem Account.order (h : Account network w made looked served m) :
    ∃ held, looked.filter (·.isCall) = served.map (·.look) ++ held ∧
      held.map (·.thread) = m.holder.toList := by
  cases hholder : m.holder with
  | none =>
      refine ⟨[], ?_, rfl⟩
      rw [List.append_nil]
      exact (h.idle hholder).1
  | some id =>
      obtain ⟨look, _, _, rfl, hlooked, -⟩ := h.held id hholder
      exact ⟨[look], hlooked, rfl⟩

theorem Account.mem_of_mem_served {x : Served} (h : Account network w made looked served m)
    (hx : x ∈ served) : x.look ∈ looked := by
  obtain ⟨held, horder, -⟩ := h.order
  have hmem : x.look ∈ looked.filter (·.isCall) := by
    rw [horder]
    exact List.mem_append_left _ (List.mem_map_of_mem hx)
  exact (List.mem_filter.mp hmem).1

theorem Account.explained (h : Account network w made looked served m) :
    ∃ oracle, Explains oracle w.history m.world.history := by
  cases hholder : m.holder with
  | none => exact (h.idle hholder).2.explained
  | some id =>
      obtain ⟨_, _, _, -, -, -, -, hmidway⟩ := h.held id hholder
      exact hmidway.explained

theorem Account.own (h : Account network w made looked served m)
    (hexplains : Explains oracle w.history m.world.history) :
    ∀ x ∈ served, network.perform oracle x.call x.look.network.world = (x.result, x.after) := by
  cases hholder : m.holder with
  | none => exact (h.idle hholder).2.own oracle hexplains
  | some id =>
      obtain ⟨_, _, _, -, -, -, -, hmidway⟩ := h.held id hholder
      exact hmidway.own oracle hexplains

theorem Account.linked (h : Account network w made looked served m) :
    ∃ w', Linked w served w' ∧ (m.holder = none → w' = m.world) := by
  cases hholder : m.holder with
  | none => exact ⟨m.world, (h.idle hholder).2.linked, fun _ => rfl⟩
  | some id =>
      obtain ⟨look, _, _, -, -, -, -, hmidway⟩ := h.held id hholder
      exact ⟨look.network.world, hmidway.linked, nofun⟩

theorem Roster.result? {x : Served} (h : Roster network made served m) (hx : x ∈ served) :
    m.result? x.look.thread = some x.result := by
  rw [Machine.result?, (h.ended x hx).2]

/-- A call that was not served has not come to anything. -/
theorem Roster.result?_eq_none {id : Nat} (h : Roster network made served m)
    (hmade : madeBy? made id = some call) (hnot : ∀ x ∈ served, x.look.thread ≠ id) :
    m.result? id = none := by
  rcases h.calls id call hmade with hwaiting | hholder | ⟨x, hx, hid, -⟩
  · rw [Machine.result?, hwaiting]
  · obtain ⟨task, hthread⟩ := h.holding id hholder
    rw [Machine.result?, hthread]
  · exact absurd hid (hnot x hx)

/-- The registry is given away only when a network is in order. -/
theorem inOrder_of_mem_looks (hw : ∃ roll, w.InOrder roll)
    (hrun : (start network interval now w).run moves = some m)
    (hlook : look ∈ looks (start network interval now w) moves) :
    ∃ roll, look.network.world.InOrder roll := by
  obtain ⟨before, _, _, -, hbefore, hnext⟩ := exists_run_of_mem_looks hrun hlook
  exact invariant_of_run (keptByCalls_inOrder network) hw hbefore (isNext_iff.mp hnext).1

/-- **Calls that come at once.** Whatever calls are made of a network that was created, and in whatever
order the steps of these calls and of the waits come: the calls that were served until some moment come
to what they come to one after the other. -/
theorem calls_are_serialised {config : NetworkConfig}
    (hcreate : World.run oracle (Network.create config).run .blank = (.ok network, w))
    (hrun : (start network interval now w).run moves = some m) :
    ∃ served, Serialised network (start network interval now w) moves m served := by
  have hw : ∃ roll, w.InOrder roll := ⟨_, inOrder_of_create hcreate⟩
  obtain ⟨_, ups, -, -, hlogged⟩ := logged_of_create hcreate
  obtain ⟨served, haccount⟩ := (account_start network interval now w).run hrun
  rw [List.nil_append, List.nil_append] at haccount
  have hlooks : ∀ look ∈ looks (start network interval now w) moves,
      ∃ roll, look.network.world.InOrder roll :=
    fun look hlook => inOrder_of_mem_looks hw hrun hlook
  refine ⟨served, {
    order := haccount.order
    made := fun x hx => (haccount.roster.ended x hx).1
    once := haccount.roster.once
    results := fun x hx => haccount.roster.result? hx
    complete := fun id call => haccount.roster.result?_eq_none
    explained := haccount.explained
    own := fun oracle => haccount.own
    linked := haccount.linked
    serial := fun oracle hexplains => ?_
    seen := fun look hlook node hnode => ?_
    answered := fun x hx node hnode => ?_
    oneAdded := ?_ }⟩
  · obtain ⟨w', hlinked, hw'⟩ := haccount.linked
    exact ⟨w', hlinked.replays (haccount.own hexplains), hw'⟩
  · obtain ⟨roll, hroll⟩ := hlooks look hlook
    exact hroll.leftRunning (hroll.enrolled.values.mem_iff.mpr hnode)
  · obtain ⟨oracle', hexplains⟩ := haccount.explained
    obtain ⟨roll, hroll⟩ := hlooks x.look (haccount.mem_of_mem_served hx)
    exact leftRunning_of_mem_shown hroll (haccount.own hexplains x hx) hnode
  · intro name hname hfree hserved hstarts hsome
    obtain ⟨oracle', hexplains⟩ := haccount.explained
    obtain ⟨w', hlinked, -⟩ := haccount.linked
    have hfree' : ¬ Registered (ups.map fun up => .registered up.1) name :=
      fun htaken => hfree (hlogged.mem_names_iff.mpr htaken)
    exact oneAdded_of_replays hname hlogged hfree' hserved hstarts hsome
      (hlinked.replays (haccount.own hexplains))

/-- Two calls want to add a node under one name, and while the first one is at it, a third call asks for
the node and a wait begins. -/
def raceForName : List Move :=
  [.call (.add (plainNode "b")), .wait 100, .call (.add (plainNode "b")),
    .handOver fun _ => ⟨none, .ok false⟩, .reply (willing 9700), .call (.get "b"), .reply (willing 9700)] ++
  List.replicate 10 (.reply (willing 9701)) ++
  [.handOver fun _ => ⟨some 5, .ok true⟩, .handOver fun _ => ⟨none, .ok false⟩, .handOver fun _ => ⟨none, .ok false⟩]

theorem calls_are_serialised_raceForName :
    ∃ (network : Network) (w : World) (m : Machine) (served : List Served),
      World.run willingHost (Network.create soloConfig).run .blank = (.ok network, w) ∧
      (start network 500 0 w).run raceForName = some m ∧ m.holder = none ∧
      Serialised network (start network 500 0 w) raceForName m served ∧
      served.map (·.look.thread) = [0, 2, 3] ∧ OneAdded network "b" served := by
  have hends :
      (match World.run willingHost (Network.create soloConfig).run .blank with
        | (.ok network, w) =>
          !w.registry.nodes.names.contains "b" && (network.checked (plainNode "b")).isOk &&
          ((looks (start network 500 0 w) raceForName).filter (·.isCall)).map (·.thread) == [0, 2, 3] &&
          ((start network 500 0 w).run raceForName).any fun m => m.holder.isNone &&
            [0, 2, 3].all fun id => ((m.result? id).bind failedStart?).isNone
        | (.error _, _) => false) = true := by
    decide +kernel
  split at hends
  next network w hcreate =>
    simp only [Bool.and_eq_true] at hends
    obtain ⟨⟨⟨hfree, hvalid⟩, hlooks⟩, hrun⟩ := hends
    obtain ⟨m, hrun, hm⟩ := (Option.any_eq_true _ _).mp hrun
    obtain ⟨hholder, hstarted⟩ := Bool.and_eq_true _ _ ▸ hm
    have hholder := Option.isNone_iff_eq_none.mp hholder
    have hfree : "b" ∉ w.registry.nodes.names := by simpa using hfree
    obtain ⟨valid, hvalid⟩ : ∃ valid, network.checked (plainNode "b") = .ok valid := by
      cases hchecked : network.checked (plainNode "b") with
      | ok valid => exact ⟨valid, rfl⟩
      | error e =>
          rw [hchecked] at hvalid
          cases hvalid
    have hadds : (Call.add (plainNode "b")).Adds network "b" := ⟨plainNode "b", valid, rfl, rfl, hvalid⟩
    obtain ⟨served, hserved⟩ := calls_are_serialised hcreate hrun
    have hthreads : served.map (·.look.thread) = [0, 2, 3] := by
      obtain ⟨held, horder, hheld⟩ := hserved.order
      rw [hholder] at hheld
      obtain rfl := List.map_eq_nil_iff.mp hheld
      rw [horder, List.append_nil, List.map_map] at hlooks
      exact eq_of_beq hlooks
    have hthread : ∀ x ∈ served, x.look.thread ∈ [0, 2, 3] :=
      fun x hx => hthreads ▸ List.mem_map_of_mem hx
    refine ⟨network, w, m, served, hcreate, hrun, hholder, hserved, hthreads,
      hserved.oneAdded "b" (by decide) hfree (fun x hx => ?_) (fun x hx _ e he => ?_) ?_⟩
    · have hmade := hserved.made x hx
      have hmem := hthread x hx
      simp only [List.mem_cons, List.not_mem_nil, or_false] at hmem
      rcases hmem with hid | hid | hid <;> rw [hid] at hmade
      · have hcall : Call.add (plainNode "b") = x.call := Option.some.inj hmade
        exact .inl (hcall ▸ hadds)
      · have hcall : Call.add (plainNode "b") = x.call := Option.some.inj hmade
        exact .inl (hcall ▸ hadds)
      · have hcall : Call.get "b" = x.call := Option.some.inj hmade
        exact .inr (hcall ▸ trivial)
    · have hstart := List.all_eq_true.mp hstarted _ (hthread x hx)
      rw [hserved.results x hx, he] at hstart
      cases hstart
    · have hfirst : 0 ∈ served.map (·.look.thread) := hthreads ▸ List.mem_cons_self
      obtain ⟨x, hx, hid⟩ := List.mem_map.mp hfirst
      have hmade := hserved.made x hx
      rw [hid] at hmade
      have hcall : Call.add (plainNode "b") = x.call := Option.some.inj hmade
      exact ⟨x, hx, hcall ▸ hadds⟩
  next => cases hends

end Machine

end Localnet
