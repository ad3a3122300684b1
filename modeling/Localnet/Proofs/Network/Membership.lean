import Localnet.Proofs.Network.Life
import Localnet.Proofs.Network.Rounds

/-!
# Health and membership

Nodes come and go while somebody waits for the network to be healthy. Each round of the wait checks the
nodes that are registered as it begins, and the last round alone decides.
-/

namespace Localnet

open World (anything)

variable {network : Network} {roll : List Node} {node : Node} {w w' : World}
  {call : Call} {result : Except NetworkError Answer}

/-- A client that was handed out once was given up. -/
def World.Closed (w : World) (client : Client) : Prop := ⟨.close client, ()⟩ ∈ w.history

theorem closed_of_timesOf_pos {client : Client}
    (h : 0 < timesOf clients.closed client w.history) : w.Closed client := by
  obtain ⟨⟨request, reply⟩, hmem, hclosed⟩ := List.countP_pos_iff.mp h
  cases request with
  | close client' =>
      obtain rfl : client' = client := by simpa [clients] using hclosed
      exact hmem
  | _ => simp [clients] at hclosed

theorem World.InOrder.not_closed (h : w.InOrder roll) (hnode : node ∈ roll) :
    ¬ w.Closed node.client := by
  intro hclosed
  have hpos : 0 < timesOf clients.closed node.client w.history := timesOf_pos_of_mem hclosed rfl
  rcases h.books.clients.settled node.client with ⟨_, _, hzero⟩ | ⟨hnot, _⟩
  · omega
  · exact hnot (List.mem_map_of_mem hnode)

/-- A node that was registered still is, or its client was closed. -/
def World.Knows (node : Node) (w : World) : Prop :=
  ∃ roll, w.InOrder roll ∧ (node ∈ roll ∨ w.Closed node.client)

theorem World.InOrder.closed_of_not_mem {roll' : List Node} (h : w.InOrder roll)
    (h' : w'.InOrder roll') (hhistory : w.history <:+ w'.history) (hnode : node ∈ roll)
    (hsub : ∀ other ∈ roll', other ∈ roll) (hnot : node ∉ roll') : w'.Closed node.client := by
  have hopened : timesOf clients.opened node.client w.history = 1 := by
    rcases h.books.clients.settled node.client with ⟨_, hone, _⟩ | ⟨habsent, _⟩
    · exact hone
    · exact absurd (List.mem_map_of_mem hnode) habsent
  have hmono : timesOf clients.opened node.client w.history ≤
      timesOf clients.opened node.client w'.history := hhistory.sublist.countP_le
  rcases h'.books.clients.settled node.client with ⟨hheld, _⟩ | ⟨_, heq, _⟩
  · obtain ⟨other, hother, hsame⟩ := List.mem_map.mp hheld
    obtain rfl := List.inj_on_of_nodup_map h.books.clients.nodup (hsub other hother) hnode hsame
    exact absurd hother hnot
  · exact closed_of_timesOf_pos (by omega)

theorem Call.mem_rollAfter_or (hnode : node ∈ roll) :
    node ∈ call.rollAfter result roll ∨ ∀ other ∈ call.rollAfter result roll, other ∈ roll := by
  unfold Call.rollAfter
  split
  next => exact .inl (List.mem_append_left _ hnode)
  next => exact .inr fun other hother => List.mem_of_mem_filter hother
  next => exact .inr nofun
  next => exact .inl hnode

theorem keptByCalls_knows (network : Network) (node : Node) :
    KeptByCalls network (World.Knows node) := by
  rintro call w ⟨roll, h, hnode⟩
  refine ((ensures_call network call h).and (World.ensures_history _ w)).ends ?_
  rintro result w' ⟨hw', hhistory⟩
  refine ⟨_, hw', ?_⟩
  rcases hnode with hnode | hclosed
  · by_cases hmem : node ∈ call.rollAfter result roll
    · exact .inl hmem
    · have hsub := (call.mem_rollAfter_or hnode).resolve_left hmem
      exact .inr (h.closed_of_not_mem hw' hhistory hnode hsub hmem)
  · exact .inr (hhistory.subset hclosed)

/-! ### What a removal, an addition and a stop leave behind -/

theorem keptByCalls_closed (network : Network) (client : Client) :
    KeptByCalls network fun w => (∃ roll, w.InOrder roll) ∧ w.Closed client := by
  rintro call w ⟨hw, hclosed⟩
  refine ((keptByCalls_inOrder network call w hw).and (World.ensures_history _ w)).ends ?_
  exact fun result w' ⟨hw', hhistory⟩ => ⟨hw', hhistory.subset hclosed⟩

theorem keptByCalls_stopped (network : Network) :
    KeptByCalls network fun w => (∃ roll, w.InOrder roll) ∧ w.registry.stopped := by
  rintro call w ⟨hw, hstopped⟩
  refine (ensures_call_of_stopped network call hstopped).mono (fun _ _ h => h.elim) ?_
  rintro result w' ⟨-, rfl⟩
  exact ⟨hw, hstopped⟩

/-- What is kept anyway is kept if it holds, whatever that depends on. -/
theorem KeptByCalls.imp {I J : World → Prop} {P : Prop} (hI : KeptByCalls network I)
    (hJ : KeptByCalls network J) (hweaker : ∀ w, J w → I w) :
    KeptByCalls network fun w => I w ∧ (P → J w) := by
  rintro call w ⟨h, himp⟩
  by_cases hP : P
  · exact (hJ call w (himp hP)).mono (fun _ _ => id) fun _ w' h' => ⟨hweaker w' h', fun _ => h'⟩
  · exact (hI call w h).mono (fun _ _ => id) fun _ _ h' => ⟨h', fun hP' => absurd hP' hP⟩

theorem ensures_remove_known (network : Network) {node : Node} {w : World} (h : w.Knows node) :
    w.Ensures anything
      (fun result w' => w'.Knows node ∧
        (result.isOk → (∃ roll, w'.InOrder roll) ∧ w'.Closed node.client))
      ((Call.remove node.name).operation network).run := by
  have hknows := keptByCalls_knows network node (.remove node.name) w h
  obtain ⟨roll, hroll, hnode⟩ := h
  have hclosed : w.Ensures anything (fun result w' => result.isOk → w'.Closed node.client)
      ((Call.remove node.name).operation network).run := by
    rw [Call.operation, World.ensures_run_map]
    refine (Network.ensures_remove node.name w).ends fun result w' hend => ?_
    cases hend with
    | stopped _ =>
        intro hok
        cases hok
    | notFound _ _ =>
        intro hok
        cases hok
    | @removed removed reply _ hget =>
        intro _
        rcases hnode with hnode | hclosed
        · cases hget.symm.trans (hroll.enrolled.get?_of_mem hnode)
          exact List.mem_cons_of_mem _ List.mem_cons_self
        · exact List.mem_cons_of_mem _ (List.mem_cons_of_mem _ hclosed)
  refine (hknows.and hclosed).ends ?_
  rintro result w' ⟨hknows', hclosed'⟩
  obtain ⟨roll', hroll', _⟩ := id hknows'
  exact ⟨hknows', fun hok => ⟨⟨roll', hroll'⟩, hclosed' hok⟩⟩

theorem ensures_add_known (network : Network) (config : NodeConfig) (node : Node) {w : World}
    (h : ∃ roll, w.InOrder roll) :
    w.Ensures anything
      (fun result w' => (∃ roll, w'.InOrder roll) ∧ (result = .ok (.node node) → w'.Knows node))
      ((Call.add config).operation network).run := by
  obtain ⟨roll, hroll⟩ := h
  refine (ensures_call network (.add config) hroll).ends ?_
  intro result w' hw'
  refine ⟨⟨_, hw'⟩, ?_⟩
  rintro rfl
  exact ⟨_, hw', .inl (List.mem_append_right _ (List.mem_singleton_self node))⟩

theorem ensures_stop_stopped (network : Network) {w : World} (h : ∃ roll, w.InOrder roll) :
    w.Ensures anything
      (fun result w' => (∃ roll, w'.InOrder roll) ∧
        (result.isOk → (∃ roll, w'.InOrder roll) ∧ w'.registry.stopped))
      (Call.stop.operation network).run := by
  have hinOrder := keptByCalls_inOrder network .stop w h
  have hstopped : w.Ensures anything (fun result w' => result.isOk → w'.registry.stopped)
      (Call.stop.operation network).run := by
    rw [Call.operation, World.ensures_run_map]
    refine (Network.ensures_stop w).ends fun result w' hend => ?_
    cases hend with
    | stopped _ =>
        intro hok
        cases hok
    | done _ _ => exact fun _ => rfl
  refine (hinOrder.and hstopped).ends ?_
  rintro result w' ⟨hw', hstopped'⟩
  exact ⟨hw', fun hok => ⟨hw', hstopped' hok⟩⟩

/-! ### Waiting while nodes come and go -/

namespace Machine

variable {m m' : Machine} {id : Nat} {moves before after : List Move}

/-- What a wait comes to in a run of a network, and what it checks. -/
structure FollowsMembership (s : Machine) (moves : List Move) (m : Machine) (id : Nat) : Prop where
  results : ∀ result, m.result? id = some result →
    result = .ok .done ∨ result = .error .stopped ∨ result = .error .healthTimeout
  /-- All nodes that were registered as the last round began were found healthy in it. -/
  healthy : m.result? id = some (.ok .done) → ∃ survey,
    (surveys id s moves).getLast? = some survey ∧ survey.isStopped = false ∧
      ∀ node ∈ survey.nodes, ∃ check ∈ survey.checks,
        check.client = node.client ∧ check.answer = .ok true ∧ check.isAnswered m.now
  /-- Each round checks the nodes that are registered as it begins, and nothing else. -/
  begun : ∀ survey ∈ surveys id s moves, ∃ next,
    survey.network.apply (.handOver survey.fates) = some next ∧
      if survey.isStopped then next.result? id = some (.error .stopped)
      else ∃ wait, next.thread? id = some (.waiting wait) ∧ wait.phase = .checking survey.checks
  /-- A node that was added is checked from then on, until it is shut down. -/
  added : ∀ before after now config node, moves = before ++ after → s.run before = some now →
    s.Returned before (.add config) (.ok (.node node)) →
    ∀ survey ∈ surveys id now after, node ∈ survey.nodes ∨ survey.network.world.Closed node.client
  /-- A node that was removed is not checked any more. -/
  removed : ∀ before during after earlier now node answer, moves = before ++ (during ++ after) →
    s.run before = some earlier → earlier.holder = none →
    node ∈ earlier.world.registry.nodes.values → earlier.run during = some now →
    earlier.Returned during (.remove node.name) (.ok answer) →
    ∀ survey ∈ surveys id now after, ∀ check ∈ survey.checks, check.client ≠ node.client
  /-- A wait that begins, or begins its last round, after the network was stopped does not succeed. -/
  stopped : ∀ before after now answer, moves = before ++ after → s.run before = some now →
    s.Returned before .stop (.ok answer) →
    (now.threads.length ≤ id ∨ surveys id now after ≠ []) →
    ∀ result, m.result? id = some result → result = .error .stopped ∨ result = .error .healthTimeout

variable {s earlier now : Machine} {during : List Move} {survey : Survey} {answer : Answer}

theorem added_of_returned {config : NodeConfig} (h : m.Keeps network fun w => ∃ roll, w.InOrder roll)
    (hrun : m.run before = some now) (hreturned : m.Returned before (.add config) (.ok (.node node)))
    (hafter : now.run after = some m') (hsurvey : survey ∈ surveys id now after) :
    node ∈ survey.nodes ∨ survey.network.world.Closed node.client := by
  have hkept : ∀ result : Except NetworkError Answer, KeptByCalls network fun w =>
      (∃ roll, w.InOrder roll) ∧ (result = .ok (.node node) → w.Knows node) :=
    fun result => (keptByCalls_inOrder network).imp (keptByCalls_knows network node)
      fun w ⟨roll, hroll, _⟩ => ⟨roll, hroll⟩
  have hnow := h.of_returned (keptByCalls_inOrder network) (fun _ _ h => h.1) hkept
    (fun w hw => ensures_add_known network config node hw) hrun hreturned
  obtain ⟨-, hknows⟩ := hnow.of_mem_surveys (hkept _) hafter hsurvey
  obtain ⟨roll, hroll, hnode⟩ := hknows rfl
  exact hnode.imp_left hroll.enrolled.values.mem_iff.mp

theorem removed_of_returned (h : earlier.Keeps network fun w => ∃ roll, w.InOrder roll)
    (hidle : earlier.holder = none) (hnode : node ∈ earlier.world.registry.nodes.values)
    (hrun : earlier.run during = some now)
    (hreturned : earlier.Returned during (.remove node.name) (.ok answer))
    (hafter : now.run after = some m') (hsurvey : survey ∈ surveys id now after) :
    ∀ other ∈ survey.nodes, other.client ≠ node.client := by
  have hknows : earlier.world.Knows node := by
    obtain ⟨roll, hroll⟩ := h.idle hidle
    exact ⟨roll, hroll, .inl (hroll.enrolled.values.mem_iff.mpr hnode)⟩
  have hkept : ∀ result : Except NetworkError Answer, KeptByCalls network fun w =>
      w.Knows node ∧ (result.isOk → (∃ roll, w.InOrder roll) ∧ w.Closed node.client) :=
    fun result => (keptByCalls_knows network node).imp (keptByCalls_closed network node.client)
      fun w ⟨⟨roll, hroll⟩, hclosed⟩ => ⟨roll, hroll, .inr hclosed⟩
  have hnow := (h.of_idle hidle hknows).of_returned (keptByCalls_knows network node)
    (fun _ _ h => h.1) hkept (fun w hw => ensures_remove_known network hw) hrun hreturned
  obtain ⟨-, hgone⟩ := hnow.of_mem_surveys (hkept _) hafter hsurvey
  obtain ⟨⟨roll, hroll⟩, hclosed⟩ := hgone rfl
  intro other hother hsame
  exact hroll.not_closed (hroll.enrolled.values.mem_iff.mpr hother) (hsame ▸ hclosed)

theorem stopped_of_returned (h : m.Keeps network fun w => ∃ roll, w.InOrder roll)
    (hrun : m.run before = some now) (hreturned : m.Returned before .stop (.ok answer))
    (hafter : now.run after = some m') (hsurvey : survey ∈ surveys id now after) :
    survey.isStopped := by
  have hkept : ∀ result : Except NetworkError Answer, KeptByCalls network fun w =>
      (∃ roll, w.InOrder roll) ∧ (result.isOk → (∃ roll, w.InOrder roll) ∧ w.registry.stopped) :=
    fun result => (keptByCalls_inOrder network).imp (keptByCalls_stopped network) fun _ h => h.1
  have hnow := h.of_returned (keptByCalls_inOrder network) (fun _ _ h => h.1) hkept
    (fun w hw => ensures_stop_stopped network hw) hrun hreturned
  obtain ⟨-, hstopped⟩ := hnow.of_mem_surveys (hkept _) hafter hsurvey
  exact (hstopped rfl).2

/-- Whatever else goes on, a wait sees the nodes that come and go as they are when its rounds begin. -/
theorem wait_follows_membership {config : NetworkConfig} {oracle : World.Oracle} {network : Network}
    {w : World} {interval start : Nat} {moves : List Move} {m : Machine} {id : Nat}
    (hcreate : World.run oracle (Network.create config).run .blank = (.ok network, w))
    (hrun : (Machine.start network interval start w).run moves = some m)
    (hwaits : (Machine.start network interval start w).Waits moves id) :
    FollowsMembership (Machine.start network interval start w) moves m id := by
  have hattends := hwaits.attends hrun
  have hkeeps : (Machine.start network interval start w).Keeps network
      fun w => ∃ roll, w.InOrder roll :=
    keeps_start network interval start ⟨_, inOrder_of_create hcreate⟩
  refine ⟨fun result => hattends.results, fun hresult => ?_, fun survey hsurvey => ?_, ?_, ?_, ?_⟩
  · obtain ⟨survey, hlast, hrunning, hchecks⟩ := hattends.last_healthy hresult
    refine ⟨survey, hlast, hrunning, fun node hnode => ?_⟩
    have hcheck := List.mem_map_of_mem (f := fun node =>
      Check.ofFate survey.network.now node.client (survey.fates node.client)) hnode
    exact ⟨_, hcheck, rfl, hchecks _ hcheck⟩
  · obtain ⟨before, after, rfl, hbefore, hmem⟩ := exists_run_of_mem_surveys hrun hsurvey
    obtain ⟨network', hbefore', hafter⟩ := run_append.mp hrun
    cases hbefore.symm.trans hbefore'
    obtain ⟨next, hmove, -⟩ := run_cons.mp hafter
    exact ⟨next, hmove, begun_of_mem_surveyOf hmem hmove⟩
  · rintro before after now config node rfl hbefore hreturned survey hsurvey
    obtain ⟨now', hbefore', hafter⟩ := run_append.mp hrun
    cases hbefore.symm.trans hbefore'
    exact added_of_returned hkeeps hbefore hreturned hafter hsurvey
  · rintro before during after earlier now node answer rfl hbefore hidle hnode hduring hreturned
      survey hsurvey check hcheck
    obtain ⟨earlier', hbefore', hrest⟩ := run_append.mp hrun
    cases hbefore.symm.trans hbefore'
    obtain ⟨now', hduring', hafter⟩ := run_append.mp hrest
    cases hduring.symm.trans hduring'
    have hearlier := hkeeps.run (keptByCalls_inOrder network) hbefore
    obtain ⟨other, hother, rfl⟩ := List.mem_map.mp hcheck
    exact removed_of_returned hearlier hidle hnode hduring hreturned hafter hsurvey other hother
  · rintro before after now answer rfl hbefore hreturned hlate result hresult
    obtain ⟨now', hbefore', hafter⟩ := run_append.mp hrun
    cases hbefore.symm.trans hbefore'
    refine (hattends.results hresult).resolve_left ?_
    rintro rfl
    obtain ⟨survey, hlast, hrunning, -⟩ := hattends.last_healthy hresult
    -- the last round is one of those that began after the stop
    have hsurvey : survey ∈ surveys id now after := by
      rw [surveys_append hbefore] at hlast
      rcases hlate with hle | hne
      · rw [surveys_eq_nil hbefore hle, List.nil_append] at hlast
        exact List.mem_of_getLast? hlast
      · rw [List.getLast?_append_of_ne_nil _ hne] at hlast
        exact List.mem_of_getLast? hlast
    have hstopped := stopped_of_returned hkeeps hbefore hreturned hafter hsurvey
    exact absurd hstopped (by simp [hrunning])

/-- A node joins while somebody waits, and after the wait the network is stopped. -/
def joinWhileWaiting : List Move :=
  [.wait 100, .call (.add (plainNode "b")), .handOver fun _ => ⟨none, .ok false⟩,
    .handOver fun _ => ⟨none, .ok false⟩, .reply (willing 9700), .reply (willing 9700)] ++
  List.replicate 10 (.reply (willing 9701)) ++
  [.handOver fun _ => ⟨some 5, .ok true⟩, .tick 5, .advance 0, .call .stop,
    .handOver fun _ => ⟨none, .ok false⟩] ++
  List.replicate 4 (.reply (willing 0))

theorem followsMembership_joinWhileWaiting :
    ∃ (network : Network) (w : World) (m : Machine),
      World.run willingHost (Network.create soloConfig).run .blank = (.ok network, w) ∧
      (Machine.start network 500 0 w).run joinWhileWaiting = some m ∧
      (Machine.start network 500 0 w).Waits joinWhileWaiting 0 ∧
      (∃ answer, m.result? 0 = some (.ok answer)) ∧
      FollowsMembership (Machine.start network 500 0 w) joinWhileWaiting m 0 := by
  have hends :
      (match World.run willingHost (Network.create soloConfig).run .blank with
        | (.ok network, w) =>
          ((Machine.start network 500 0 w).run joinWhileWaiting).any
            fun m => (m.result? 0).any (·.isOk)
        | (.error _, _) => false) = true := by
    decide +kernel
  split at hends
  next network w hcreate =>
    obtain ⟨m, hrun, hresult⟩ := (Option.any_eq_true _ _).mp hends
    obtain ⟨result, hresult, hok⟩ := (Option.any_eq_true _ _).mp hresult
    have hwaits : (Machine.start network 500 0 w).Waits joinWhileWaiting 0 :=
      ⟨[], 100, _, _, rfl, rfl, rfl⟩
    refine ⟨network, w, m, hcreate, hrun, hwaits, ?_, wait_follows_membership hcreate hrun hwaits⟩
    cases result with
    | ok answer => exact ⟨answer, hresult⟩
    | error e => cases hok
  next => cases hends

end Machine

end Localnet
