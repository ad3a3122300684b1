import Localnet.Proofs.Network.Stopping
import Mathlib.Data.List.Flatten
import Mathlib.Data.List.Forall2

/-!
# Nodes that are shut down side by side

A stop shuts the nodes down one after the other. Nothing depends on that: nodes that are shut down side by
side, each going on as soon as it is answered, are asked for the same things, and a network that is
stopped that way is in the same state. One by one is one of the orders; and side by side, a node that does
not answer keeps no other one.
-/

namespace Localnet

open List (Forall₂)

variable {α : Type}

namespace World

/-- What a task does next, whatever the host answers. -/
inductive Goes : Task α → World → Task α → World → Prop
  | looked (next : Registry → Task α) (w : World) :
      Goes (Program.ask .registry next) w (next w.registry) w
  | changed (r : Registry) (next : Unit → Task α) (w : World) :
      Goes (Program.ask (.setRegistry r) next) w (next ()) { w with registry := r }
  | answered (request : HostRequest) (next : request.Reply → Task α) (w : World)
      (answer : request.Answer) :
      Goes (Program.ask (.host request) next) w (next (w.grant request answer))
        (w.record request (w.grant request answer))

/-- One of several tasks goes on. -/
inductive OneGoes : List (Task α) → World → List (Task α) → World → Prop
  | head {task task' : Task α} {w w' : World} (rest : List (Task α)) :
      Goes task w task' w' → OneGoes (task :: rest) w (task' :: rest) w'
  | tail {rest rest' : List (Task α)} {w w' : World} (task : Task α) :
      OneGoes rest w rest' w' → OneGoes (task :: rest) w (task :: rest') w'

/-- Several tasks go on for a while, in any order. -/
inductive SideBySide (tasks : List (Task α)) (w : World) : List (Task α) → World → Prop
  | refl : SideBySide tasks w tasks w
  | step {tasks' tasks'' : List (Task α)} {w' w'' : World} :
      SideBySide tasks w tasks' w' → OneGoes tasks' w' tasks'' w'' → SideBySide tasks w tasks'' w''

end World

open World

variable {task task' : Task α} {tasks tasks' tasks'' rest rest' : List (Task α)} {w w' w'' : World}

theorem World.OneGoes.length_eq (h : OneGoes tasks w tasks' w') : tasks'.length = tasks.length := by
  induction h with
  | head rest _ => rfl
  | tail task _ ih => exact congrArg (· + 1) ih

namespace World.SideBySide

theorem trans (h : SideBySide tasks w tasks' w') (h' : SideBySide tasks' w' tasks'' w'') :
    SideBySide tasks w tasks'' w'' := by
  induction h' with
  | refl => exact h
  | step _ hstep ih => exact ih.step hstep

theorem cons (task : Task α) (h : SideBySide rest w rest' w') :
    SideBySide (task :: rest) w (task :: rest') w' := by
  induction h with
  | refl => exact .refl
  | step _ hstep ih => exact ih.step (.tail task hstep)

theorem length_eq (h : SideBySide tasks w tasks' w') : tasks'.length = tasks.length := by
  induction h with
  | refl => rfl
  | step _ hstep ih => exact hstep.length_eq.trans ih

theorem head_of_goes (hgoes : Goes task w task' w') (rest : List (Task α))
    (h : SideBySide (task' :: rest) w' tasks w'') : SideBySide (task :: rest) w tasks w'' :=
  .trans (.step .refl (.head rest hgoes)) h

/-- One task runs to its end while the others wait. -/
theorem run_head (oracle : Oracle) (task : Task α) (rest : List (Task α)) (w : World) :
    SideBySide (task :: rest) w (.done (run oracle task w).1 :: rest) (run oracle task w).2 := by
  induction task generalizing w with
  | done a => exact .refl
  | ask request next ih =>
      cases request with
      | registry => exact head_of_goes (.looked next w) rest (ih _ _)
      | setRegistry r => exact head_of_goes (.changed r next w) rest (ih _ _)
      | host request => exact head_of_goes (.answered request next w _) rest (ih _ _)

theorem append_left (before : List (Task α)) (h : SideBySide tasks w tasks' w') :
    SideBySide (before ++ tasks) w (before ++ tasks') w' := by
  induction before with
  | nil => exact h
  | cons task before ih => exact ih.cons task

/-- Some tasks run to their ends while the others wait. -/
theorem run_all (oracle : Oracle) (tasks rest : List (Task α)) (w : World) :
    ∃ (results : List α) (w' : World), results.length = tasks.length ∧
      SideBySide (tasks ++ rest) w (results.map .done ++ rest) w' := by
  induction tasks generalizing w with
  | nil => exact ⟨[], w, rfl, .refl⟩
  | cons task others ih =>
      obtain ⟨results, w', hlength, hothers⟩ := ih (run oracle task w).2
      exact ⟨(run oracle task w).1 :: results, w', congrArg (· + 1) hlength,
        (run_head oracle task (others ++ rest) w).trans (hothers.cons _)⟩

/-- One task waits for its answer, and all others run to their ends. -/
theorem run_others (oracle : Oracle) (before after : List (Task α)) (task : Task α) (w : World) :
    ∃ (first last : List α) (w' : World), first.length = before.length ∧ last.length = after.length ∧
      SideBySide (before ++ task :: after) w (first.map .done ++ task :: last.map .done) w' := by
  obtain ⟨first, w₁, hfirst, hbefore⟩ := run_all oracle before (task :: after) w
  obtain ⟨last, w₂, hlast, hafter⟩ := run_all oracle after [] w₁
  rw [List.append_nil, List.append_nil] at hafter
  have hboth := hbefore.trans ((hafter.cons task).append_left (first.map .done))
  exact ⟨first, last, w₂, hfirst, hlast, hboth⟩

end World.SideBySide

/-! ### Recitals -/

/-- A task that asks the host for some things one after the other, whatever it is answered. -/
inductive Task.Recites : Task α → List HostRequest → Prop
  | done (a : α) : Recites (.done a) []
  | ask {request : HostRequest} {next : request.Reply → Task α} {requests : List HostRequest} :
      (∀ reply, Recites (next reply) requests) →
      Recites (Program.ask (.host request) next) (request :: requests)

/-- The requests of one list are fewer by the first one. -/
inductive Takes (request : HostRequest) : List (List HostRequest) → List (List HostRequest) → Prop
  | head (requests : List HostRequest) (lists : List (List HostRequest)) :
      Takes request ((request :: requests) :: lists) (requests :: lists)
  | tail {lists lists' : List (List HostRequest)} (requests : List HostRequest) :
      Takes request lists lists' → Takes request (requests :: lists) (requests :: lists')

/-- Of a list, the first requests were asked for, in their order, and the last ones are left. -/
def Leaves (asked list left : List HostRequest) : Prop := ∃ own, list = own ++ left ∧ own.Sublist asked

/-- Some things were asked for, each the first that was left of one of the lists. -/
structure Interleaves (lists : List (List HostRequest)) (asked : List HostRequest)
    (left : List (List HostRequest)) : Prop where
  perm : (asked ++ left.flatten).Perm lists.flatten
  each : Forall₂ (Leaves asked) lists left

section

variable {request : HostRequest} {requests asked : List HostRequest}
  {lists left left' : List (List HostRequest)}

theorem Takes.perm (h : Takes request left left') : (request :: left'.flatten).Perm left.flatten := by
  induction h with
  | head requests lists => exact .refl _
  | tail requests _ ih => exact List.perm_middle.symm.trans (ih.append_left requests)

theorem Leaves.snoc {list rest : List HostRequest} (h : Leaves asked list rest) (request : HostRequest) :
    Leaves (asked ++ [request]) list rest := by
  obtain ⟨own, heq, hown⟩ := h
  exact ⟨own, heq, hown.trans (List.sublist_append_left asked [request])⟩

theorem Leaves.of_cons {list rest : List HostRequest} (h : Leaves asked list (request :: rest)) :
    Leaves (asked ++ [request]) list rest := by
  obtain ⟨own, rfl, hown⟩ := h
  exact ⟨own ++ [request], by simp, hown.append (List.Sublist.refl [request])⟩

theorem Takes.each (h : Takes request left left') (heach : Forall₂ (Leaves asked) lists left) :
    Forall₂ (Leaves (asked ++ [request])) lists left' := by
  induction h generalizing lists with
  | head requests left =>
      obtain ⟨list, lists, hfirst, hrest, rfl⟩ := List.forall₂_cons_right_iff.mp heach
      exact .cons hfirst.of_cons (hrest.imp fun _ _ h => h.snoc request)
  | tail requests _ ih =>
      obtain ⟨list, lists, hfirst, hrest, rfl⟩ := List.forall₂_cons_right_iff.mp heach
      exact .cons (hfirst.snoc request) (ih hrest)

theorem interleaves_nil (lists : List (List HostRequest)) : Interleaves lists [] lists where
  perm := .refl _
  each := List.forall₂_same.mpr fun _ _ => ⟨[], rfl, .refl []⟩

theorem Interleaves.snoc (h : Interleaves lists asked left) (htakes : Takes request left left') :
    Interleaves lists (asked ++ [request]) left' where
  perm := by
    rw [List.append_assoc]
    exact (htakes.perm.append_left asked).trans h.perm
  each := htakes.each h.each

theorem Task.recites_done_iff {a : α} : Task.Recites (.done a) requests ↔ requests = [] := by
  refine ⟨fun h => ?_, fun h => h ▸ .done a⟩
  cases h with
  | done _ => rfl

/-- A task that has ended has asked for all that it had to. -/
theorem Interleaves.sublist_of_done {i : Nat} {a : α} (h : Interleaves lists asked left)
    (hrecites : Forall₂ Task.Recites tasks left) (hlist : lists[i]? = some requests)
    (htask : tasks[i]? = some (.done a)) : requests.Sublist asked := by
  obtain ⟨hi, rfl⟩ := List.getElem?_eq_some_iff.mp hlist
  obtain ⟨hi', htask⟩ := List.getElem?_eq_some_iff.mp htask
  have hlength : i < left.length := hrecites.length_eq ▸ hi'
  have hnone := hrecites.get hi' hlength
  rw [List.get_eq_getElem, htask, Task.recites_done_iff] at hnone
  obtain ⟨own, heq, hown⟩ := h.each.get hi hlength
  rw [hnone, List.append_nil, List.get_eq_getElem] at heq
  rwa [heq]

theorem flatten_eq_nil_of_done (h : Forall₂ Task.Recites tasks left)
    (hdone : ∀ task ∈ tasks, ∃ a, task = .done a) : left.flatten = [] := by
  induction h with
  | nil => rfl
  | cons hfirst _ ih =>
      obtain ⟨⟨a, rfl⟩, hrest⟩ := List.forall_mem_cons.mp hdone
      rw [Task.recites_done_iff.mp hfirst, List.flatten_cons, ih hrest, List.append_nil]

theorem Task.Recites.goes (h : task.Recites requests) (hgoes : Goes task w task' w') :
    ∃ request reply rest, requests = request :: rest ∧ task'.Recites rest ∧
      w' = w.record request reply := by
  cases h with
  | done a => cases hgoes
  | ask hnext =>
      cases hgoes with
      | answered request next w answer => exact ⟨_, _, _, rfl, hnext _, rfl⟩

/-- Whichever task goes on, it asks for the next thing that it has left. -/
theorem recites_of_oneGoes (h : Forall₂ Task.Recites tasks lists) (hgoes : OneGoes tasks w tasks' w') :
    ∃ request reply left, Forall₂ Task.Recites tasks' left ∧ Takes request lists left ∧
      w' = w.record request reply := by
  induction hgoes generalizing lists with
  | head rest hgoes =>
      obtain ⟨list, lists, hfirst, hrest, rfl⟩ := List.forall₂_cons_left_iff.mp h
      obtain ⟨request, reply, requests, rfl, hrecites, rfl⟩ := hfirst.goes hgoes
      exact ⟨request, reply, _, .cons hrecites hrest, .head requests lists, rfl⟩
  | tail task _ ih =>
      obtain ⟨list, lists, hfirst, hrest, rfl⟩ := List.forall₂_cons_left_iff.mp h
      obtain ⟨request, reply, left, hrecites, htakes, rfl⟩ := ih hrest
      exact ⟨request, reply, _, .cons hfirst hrecites, .tail list htakes, rfl⟩

/-- Side by side, tasks ask for what each of them would ask for alone. -/
theorem World.SideBySide.interleaves (h : SideBySide tasks w tasks' w')
    (hrecites : Forall₂ Task.Recites tasks lists) :
    ∃ events left, w'.registry = w.registry ∧ w'.history = events ++ w.history ∧
      Forall₂ Task.Recites tasks' left ∧ Interleaves lists (events.map (·.request)).reverse left := by
  induction h with
  | refl => exact ⟨[], lists, rfl, rfl, hrecites, interleaves_nil lists⟩
  | step _ hstep ih =>
      obtain ⟨events, left, hregistry, hhistory, hleft, hinterleaves⟩ := ih
      obtain ⟨request, reply, left', hleft', htakes, rfl⟩ := recites_of_oneGoes hleft hstep
      refine ⟨⟨request, reply⟩ :: events, left', hregistry, congrArg (_ :: ·) hhistory, hleft', ?_⟩
      rw [List.map_cons, List.reverse_cons]
      exact hinterleaves.snoc htakes

end

/-! ### Shutting down -/

namespace Network

/-- What is asked for to shut a node down. -/
def shutDownRequests (node : Node) : List HostRequest := [.close node.client, .stop node.process]

theorem recites_shutDown (node : Node) : (shutDown node).Recites (shutDownRequests node) :=
  .ask fun _ => .ask fun reply => .done reply

theorem forall₂_recites_shutDown (nodes : List Node) :
    Forall₂ Task.Recites (nodes.map shutDown) (nodes.map shutDownRequests) := by
  rw [List.forall₂_map_left_iff, List.forall₂_map_right_iff, List.forall₂_same]
  exact fun node _ => recites_shutDown node

/-- What nodes that are shut down side by side are asked for: of each that is done with it, to close its
client and then to stop its process; and nothing else, when all of them are. -/
theorem asked_of_sideBySide {nodes : List Node} {tasks : List (Task (Except Failure Unit))}
    (h : SideBySide (nodes.map shutDown) w tasks w') :
    ∃ events, w'.registry = w.registry ∧ w'.history = events ++ w.history ∧
      (∀ (i : Nat) (node : Node) (result : Except Failure Unit), nodes[i]? = some node →
        tasks[i]? = some (.done result) →
        (shutDownRequests node).Sublist (events.map (·.request)).reverse) ∧
      ((∀ task ∈ tasks, ∃ result, task = .done result) →
        (events.map (·.request)).Perm (nodes.flatMap shutDownRequests) ∧
        ∀ node ∈ nodes, (shutDownRequests node).Sublist (events.map (·.request)).reverse) := by
  obtain ⟨events, left, hregistry, hhistory, hleft, hinterleaves⟩ :=
    h.interleaves (forall₂_recites_shutDown nodes)
  have hasked : ∀ (i : Nat) (node : Node) (result : Except Failure Unit), nodes[i]? = some node →
      tasks[i]? = some (.done result) →
      (shutDownRequests node).Sublist (events.map (·.request)).reverse := fun i node result hnode htask =>
    hinterleaves.sublist_of_done hleft (by rw [List.getElem?_map, hnode, Option.map_some]) htask
  refine ⟨events, hregistry, hhistory, hasked, fun hdone => ⟨?_, fun node hnode => ?_⟩⟩
  · have hperm := hinterleaves.perm
    rw [flatten_eq_nil_of_done hleft hdone, List.append_nil] at hperm
    exact (List.reverse_perm _).symm.trans hperm
  · obtain ⟨i, hi, rfl⟩ := List.mem_iff_getElem.mp hnode
    have hlength : i < tasks.length := by
      rw [h.length_eq, List.length_map]
      exact hi
    obtain ⟨result, htask⟩ := hdone _ (List.getElem_mem hlength)
    exact hasked i _ result (List.getElem?_eq_getElem hi)
      ((List.getElem?_eq_getElem hlength).trans (congrArg some htask))

/-- One by one is one of the orders. -/
theorem sideBySide_shutDownAll (oracle : Oracle) (nodes : List Node) (w : World) :
    ∃ results : List (Except Failure Unit), SideBySide (nodes.map shutDown) w (results.map .done)
      (World.run oracle (shutDownAll nodes) w).2 := by
  induction nodes generalizing w with
  | nil => exact ⟨[], .refl⟩
  | cons node rest ih =>
      obtain ⟨results, hrest⟩ := ih (World.run oracle (shutDown node) w).2
      rw [shutDownAll, World.run_bind]
      exact ⟨(World.run oracle (shutDown node) w).1 :: results,
        (SideBySide.run_head oracle _ _ w).trans (hrest.cons _)⟩

end Network

/-! ### The stop -/

section

variable {nodes : List Node} {events : List Event}

/-- How often a handle is closed, if it can be told from what is asked for. -/
theorem timesOf_closed_of_perm {H : Type} [DecidableEq H] {kind : HandleKind H} {handle : Node → H} {x : H}
    (isAbout : HostRequest → Bool) (hevent : ∀ e, kind.closed e = some x ↔ isAbout e.request)
    (hnode : ∀ node, (Network.shutDownRequests node).countP isAbout = if handle node = x then 1 else 0)
    (h : (events.map (·.request)).Perm (nodes.flatMap Network.shutDownRequests)) :
    timesOf kind.closed x events = (nodes.map handle).count x := by
  have hnodes : (nodes.flatMap Network.shutDownRequests).countP isAbout = (nodes.map handle).count x := by
    clear h
    induction nodes with
    | nil => rfl
    | cons node rest ih =>
        rw [List.flatMap_cons, List.countP_append, hnode, ih, List.map_cons, List.count_cons, Nat.add_comm]
        simp
  rw [← hnodes, ← h.countP_eq, List.countP_map, timesOf]
  exact List.countP_congr fun e _ => by simp [hevent]

theorem timesOf_closed_client (client : Client)
    (h : (events.map (·.request)).Perm (nodes.flatMap Network.shutDownRequests)) :
    timesOf clients.closed client events = (nodes.map (·.client)).count client := by
  classical
  refine timesOf_closed_of_perm (fun request => decide (request = .close client)) (fun e => ?_)
    (fun node => ?_) h
  · obtain ⟨request, reply⟩ := e
    cases request <;> simp [clients]
  · simp [Network.shutDownRequests, List.countP_cons]

theorem timesOf_closed_process (process : Process)
    (h : (events.map (·.request)).Perm (nodes.flatMap Network.shutDownRequests)) :
    timesOf processes.closed process events = (nodes.map (·.process)).count process := by
  classical
  refine timesOf_closed_of_perm (fun request => decide (request = .stop process)) (fun e => ?_)
    (fun node => ?_) h
  · obtain ⟨request, reply⟩ := e
    cases request <;> simp [processes]
  · simp [Network.shutDownRequests, List.countP_cons]

end

/-- The nodes of a network go on being shut down, once none of them is registered any more. -/
def World.ShuttingDown (w : World) (tasks : List (Task (Except Failure Unit))) (w' : World) : Prop :=
  SideBySide (w.registry.nodes.values.map Network.shutDown) { w with registry := w.registry.clear }
    tasks w'

/-- The last thing that a stop does. -/
def World.markedStopped (w : World) : World := { w with registry := { w.registry with stopped := true } }

/-- From a world to another one, the client of each registered node is closed before its process is to
stop. -/
def World.ClosesFirst (w w' : World) : Prop :=
  ∃ events, w'.history = events ++ w.history ∧ ∀ node ∈ w.registry.nodes.values,
    (Network.shutDownRequests node).Sublist (events.map (·.request)).reverse

theorem World.ShuttingDown.shutDownFrom {roll : List Node} {tasks : List (Task (Except Failure Unit))}
    (h : w.ShuttingDown tasks w') (horder : w.InOrder roll)
    (hdone : ∀ task ∈ tasks, ∃ result, task = .done result) :
    w.ShutDownFrom w'.markedStopped ∧ w.ClosesFirst w' := by
  obtain ⟨events, hregistry, hhistory, -, hall⟩ := Network.asked_of_sideBySide h
  obtain ⟨hperm, horders⟩ := hall hdone
  have hvalues := horder.enrolled.values
  refine ⟨⟨?_, events, hhistory, fun e he => ?_, fun node hnode => ?_⟩, events, hhistory, horders⟩
  · rw [World.markedStopped, hregistry]
    rfl
  · have hmem := hperm.mem_iff.mp (List.mem_map_of_mem he)
    obtain ⟨node, hnode, hrequest⟩ := List.mem_flatMap.mp hmem
    exact ⟨node, hnode, by simpa [Network.shutDownRequests] using hrequest⟩
  · rw [timesOf_closed_client _ hperm, timesOf_closed_process _ hperm]
    exact ⟨List.count_eq_one_of_mem ((hvalues.map _).nodup_iff.mp horder.books.clients.nodup)
        (List.mem_map_of_mem hnode),
      List.count_eq_one_of_mem ((hvalues.map _).nodup_iff.mp horder.books.processes.nodup)
        (List.mem_map_of_mem hnode)⟩

theorem Network.run_stop_eq (oracle : Oracle) (hrunning : w.registry.stopped = false) :
    World.run oracle stop.run w = (.ok (),
      (World.run oracle (shutDownAll w.registry.nodes.values)
        { w with registry := w.registry.clear }).2.markedStopped) := by
  unfold stop running
  change World.run oracle (ExceptT.run ((if w.registry.stopped then _ else _) >>= _)) w = _
  rw [hrunning]
  change World.run oracle (ExceptT.run (ExceptT.lift (shutDownAll w.registry.nodes.values) >>= _))
    { w with registry := w.registry.clear } = _
  rw [ExceptT.run_bind, ExceptT.run_lift, ← bind_pure_comp, World.run_bind, World.run_bind]
  rfl

/-- One by one is how a stop does it. -/
theorem exists_shuttingDown_of_stop (network : Network) (oracle : Oracle)
    (hrunning : w.registry.stopped = false) :
    ∃ (results : List (Except Failure Unit)) (w' : World), w.ShuttingDown (results.map .done) w' ∧
      World.run oracle (Call.stop.operation network).run w = (.ok .done, w'.markedStopped) := by
  obtain ⟨results, hall⟩ := Network.sideBySide_shutDownAll oracle w.registry.nodes.values
    { w with registry := w.registry.clear }
  refine ⟨results, _, hall, ?_⟩
  rw [Call.operation, ExceptT.run_map, ← bind_pure_comp, World.run_bind,
    Network.run_stop_eq oracle hrunning]
  rfl

theorem exists_done_of_ne {first last : List α} {i : Nat} (hi : i < first.length + (last.length + 1))
    (hne : i ≠ first.length) :
    ∃ a, (first.map .done ++ task :: last.map .done)[i]? = some (.done a) := by
  rcases Nat.lt_or_gt_of_ne hne with hlt | hgt
  · exact ⟨first[i], by simp [List.getElem?_append_left, hlt]⟩
  · obtain ⟨k, rfl⟩ := Nat.exists_eq_add_of_lt hgt
    have hk : k < last.length := by omega
    refine ⟨last[k], ?_⟩
    rw [List.getElem?_append_right (by simp; omega), List.length_map, Nat.add_assoc,
      Nat.add_sub_cancel_left, List.getElem?_cons_succ]
    simp [hk]

/-- **Any order.** A stop might as well shut the nodes down side by side, each going on as soon as it is
answered. Whatever the order is, a network that was running is then shut down, each node its client first;
one by one is one of the orders; and while one node does not answer, all others can be shut down. -/
theorem stop_in_any_order {network : Network} (h : Reached network w)
    (hrunning : w.registry.stopped = false) :
    (∀ tasks w', w.ShuttingDown tasks w' → (∀ task ∈ tasks, ∃ result, task = .done result) →
      w.ShutDownFrom w'.markedStopped ∧ w.ClosesFirst w') ∧
    (∀ oracle : Oracle, ∃ (results : List (Except Failure Unit)) (w' : World),
      w.ShuttingDown (results.map .done) w' ∧
      World.run oracle (Call.stop.operation network).run w = (.ok .done, w'.markedStopped)) ∧
    ∀ before task after w', w.ShuttingDown (before ++ task :: after) w' →
      ∃ tasks w'' events, SideBySide (before ++ task :: after) w' tasks w'' ∧
        tasks[before.length]? = some task ∧ w''.history = events ++ w.history ∧
        ∀ (i : Nat) (node : Node), i ≠ before.length → w.registry.nodes.values[i]? = some node →
          (Network.shutDownRequests node).Sublist (events.map (·.request)).reverse := by
  obtain ⟨roll, horder⟩ := h.inOrder
  refine ⟨fun tasks w' hdown hdone => hdown.shutDownFrom horder hdone,
    fun oracle => exists_shuttingDown_of_stop network oracle hrunning, ?_⟩
  intro before task after w' hdown
  obtain ⟨first, last, w'', hfirst, hlast, hothers⟩ :=
    SideBySide.run_others willingHost before after task w'
  obtain ⟨events, -, hhistory, hasked, -⟩ := Network.asked_of_sideBySide (hdown.trans hothers)
  refine ⟨_, w'', events, hothers, by simp [hfirst], hhistory, fun i node hne hnode => ?_⟩
  have hlength : (before ++ task :: after).length = w.registry.nodes.values.length := by
    simpa using hdown.length_eq
  obtain ⟨hi, -⟩ := List.getElem?_eq_some_iff.mp hnode
  rw [← hlength, List.length_append, List.length_cons, ← hfirst, ← hlast] at hi
  obtain ⟨result, hdone⟩ := exists_done_of_ne hi (hfirst ▸ hne)
  exact hasked i node result hnode hdone

end Localnet
