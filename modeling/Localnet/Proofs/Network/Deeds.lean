import Localnet.Proofs.Network.Steps
import Mathlib.Data.List.Induction

/-!
# Calls one after the other

Calls that are made one after the other leave a log of what they did: which nodes were registered, and
which names were removed. As long as the network is not stopped, its roll lists the nodes that stand by
the log: each was registered under its name, and nothing was done about that name since.
-/

namespace Localnet

open World (anything)

/-- What a call comes to when it is made by itself. -/
def Network.perform (network : Network) (oracle : World.Oracle) (call : Call) (w : World) :
    Except NetworkError Answer × World :=
  World.run oracle (call.operation network).run w

/-- Makes calls one after the other. -/
def Network.callAll (network : Network) (calls : List Call) :
    Task (List (Except NetworkError Answer)) :=
  calls.mapM fun call => (call.operation network).run

/-- Something that changes which node is found under a name. -/
inductive Deed where
  | registered (node : Node)
  | removed (name : String)

def Deed.name : Deed → String
  | .registered node => node.name
  | .removed name => name

/-- What a call did, by its result. -/
def Call.deeds : Call → Except NetworkError Answer → List Deed
  | .add _, .ok (.node node) => [.registered node]
  | .remove name, .ok _ => [.removed name]
  | _, _ => []

def deedsOf (calls : List Call) (results : List (Except NetworkError Answer)) : List Deed :=
  (calls.zip results).flatMap fun x => x.1.deeds x.2

/-- By a log, the first deed first, a node was registered, and nothing was done about its name since. -/
def Stands (log : List Deed) (node : Node) : Prop :=
  ∃ before after, log = before ++ .registered node :: after ∧ ∀ deed ∈ after, deed.name ≠ node.name

/-- By a log, a node was registered under a name, and the name was not removed since. -/
def Registered (log : List Deed) (name : String) : Prop :=
  ∃ before node after, log = before ++ .registered node :: after ∧ node.name = name ∧
    .removed name ∉ after

/-! ### Logs -/

section

variable {log : List Deed} {deed : Deed} {node : Node} {name : String}

/-- The last element of a list is the one that it is split at, or the last one behind it. -/
theorem concat_eq_append_cons_iff {α : Type} {l before after : List α} {a b : α} :
    l ++ [a] = before ++ b :: after ↔
      (after = [] ∧ l = before ∧ a = b) ∨ ∃ rest, after = rest ++ [a] ∧ l = before ++ b :: rest := by
  constructor
  · intro h
    rcases List.eq_nil_or_concat' after with rfl | ⟨rest, last, rfl⟩
    · obtain ⟨hl, hlast⟩ := List.append_inj' h rfl
      exact .inl ⟨rfl, hl, (List.cons.inj hlast).1⟩
    · rw [← List.cons_append, ← List.append_assoc] at h
      obtain ⟨hl, hlast⟩ := List.append_inj' h rfl
      exact .inr ⟨rest, congrArg _ hlast.symm, hl⟩
  · rintro (⟨rfl, rfl, rfl⟩ | ⟨rest, rfl, rfl⟩)
    · rfl
    · rw [List.append_assoc, List.cons_append]

/-- What the last deed changes. -/
theorem stands_concat : Stands (log ++ [deed]) node ↔
    deed = .registered node ∨ (Stands log node ∧ deed.name ≠ node.name) := by
  simp only [Stands, concat_eq_append_cons_iff]
  constructor
  · rintro ⟨before, after, ⟨-, -, rfl⟩ | ⟨rest, rfl, rfl⟩, hafter⟩
    · exact .inl rfl
    · rw [List.forall_mem_append, List.forall_mem_singleton] at hafter
      exact .inr ⟨⟨before, rest, rfl, hafter.1⟩, hafter.2⟩
  · rintro (rfl | ⟨⟨before, rest, rfl, hrest⟩, hne⟩)
    · exact ⟨log, [], .inl ⟨rfl, rfl, rfl⟩, fun _ hdeed => absurd hdeed List.not_mem_nil⟩
    · refine ⟨before, rest ++ [deed], .inr ⟨rest, rfl, rfl⟩, ?_⟩
      rw [List.forall_mem_append, List.forall_mem_singleton]
      exact ⟨hrest, hne⟩

theorem registered_concat : Registered (log ++ [deed]) name ↔
    (∃ node, deed = .registered node ∧ node.name = name) ∨
      (Registered log name ∧ deed ≠ .removed name) := by
  simp only [Registered, concat_eq_append_cons_iff]
  constructor
  · rintro ⟨before, node, after, ⟨-, -, rfl⟩ | ⟨rest, rfl, rfl⟩, hname, hafter⟩
    · exact .inl ⟨node, rfl, hname⟩
    · rw [List.mem_append, not_or, List.mem_singleton] at hafter
      exact .inr ⟨⟨before, node, rest, rfl, hname, hafter.1⟩, Ne.symm hafter.2⟩
  · rintro (⟨node, rfl, hname⟩ | ⟨⟨before, node, rest, rfl, hname, hrest⟩, hne⟩)
    · exact ⟨log, node, [], .inl ⟨rfl, rfl, rfl⟩, hname, List.not_mem_nil⟩
    · refine ⟨before, node, rest ++ [deed], .inr ⟨rest, rfl, rfl⟩, hname, ?_⟩
      rw [List.mem_append, not_or, List.mem_singleton]
      exact ⟨hrest, Ne.symm hne⟩

/-- A name that was registered and not removed since is that of one node that stands: the latest. -/
theorem registered_iff : Registered log name ↔ ∃ node, Stands log node ∧ node.name = name := by
  induction log using List.reverseRecOn with
  | nil => simp [Registered, Stands]
  | append_singleton log deed ih =>
      simp only [registered_concat, stands_concat, ih]
      constructor
      · rintro (⟨node, rfl, hname⟩ | ⟨⟨node, hstands, hname⟩, hne⟩)
        · exact ⟨node, .inl rfl, hname⟩
        · cases deed with
          | registered new =>
              by_cases hnew : new.name = name
              · exact ⟨new, .inl rfl, hnew⟩
              · exact ⟨node, .inr ⟨hstands, hname ▸ hnew⟩, hname⟩
          | removed other =>
              refine ⟨node, .inr ⟨hstands, ?_⟩, hname⟩
              rintro rfl
              exact hne (congrArg Deed.removed hname)
      · rintro ⟨node, rfl | ⟨hstands, hne⟩, hname⟩
        · exact .inl ⟨node, rfl, hname⟩
        · refine .inr ⟨⟨node, hstands, hname⟩, ?_⟩
          rintro rfl
          exact hne hname.symm

end

/-! ### The roll by a log -/

section

variable {network : Network} {call : Call} {calls : List Call} {oracle : World.Oracle}
  {result : Except NetworkError Answer} {results : List (Except NetworkError Answer)}
  {roll : List Node} {log : List Deed} {w w' : World}

/-- A roll lists the nodes that stand by a log. -/
def Records (roll : List Node) (log : List Deed) : Prop := ∀ node, node ∈ roll ↔ Stands log node

theorem records_registered {nodes : List Node} (hnodup : (nodes.map (·.name)).Nodup) :
    Records nodes (nodes.map .registered) := by
  induction nodes using List.reverseRecOn with
  | nil => simp [Records, Stands]
  | append_singleton nodes last ih =>
      intro node
      rw [List.map_append, List.map_singleton] at hnodup ⊢
      have hne : ∀ other ∈ nodes, last.name ≠ other.name := by
        intro other hother heq
        refine List.disjoint_of_nodup_append hnodup (List.mem_map_of_mem hother) ?_
        exact heq ▸ List.mem_singleton_self _
      rw [stands_concat, ← ih (hnodup.of_append_left) node, List.mem_append, List.mem_singleton]
      constructor
      · rintro (hnode | rfl)
        · exact .inr ⟨hnode, hne node hnode⟩
        · exact .inl rfl
      · rintro (heq | ⟨hnode, -⟩)
        · cases heq
          exact .inr rfl
        · exact .inl hnode

theorem Records.rollAfter (h : Records roll log) (hcall : call ≠ .stop)
    (hnodup : ((call.rollAfter result roll).map (·.name)).Nodup) :
    Records (call.rollAfter result roll) (log ++ call.deeds result) := by
  unfold Call.rollAfter at hnodup ⊢
  split
  next config node =>
    intro other
    have hne : ∀ old ∈ roll, node.name ≠ old.name := by
      intro old hold heq
      rw [List.map_append] at hnodup
      refine List.disjoint_of_nodup_append hnodup (List.mem_map_of_mem hold) ?_
      exact heq ▸ List.mem_singleton_self _
    rw [Call.deeds, stands_concat, ← h other, List.mem_append, List.mem_singleton]
    constructor
    · rintro (hother | rfl)
      · exact .inr ⟨hother, hne other hother⟩
      · exact .inl rfl
    · rintro (heq | ⟨hother, -⟩)
      · cases heq
        exact .inr rfl
      · exact .inl hother
  next name answer =>
    intro other
    rw [Call.deeds, stands_concat, ← h other, List.mem_filter, decide_eq_true_eq]
    constructor
    · exact fun ⟨hother, hne⟩ => .inr ⟨hother, Ne.symm hne⟩
    · rintro (heq | ⟨hother, hne⟩)
      · cases heq
      · exact ⟨hother, Ne.symm hne⟩
  next => exact absurd rfl hcall
  next hadd hremove hstop =>
    have hdeeds : call.deeds result = [] := by
      unfold Call.deeds
      split
      next => exact (hadd _ _ rfl rfl).elim
      next => exact (hremove _ _ rfl rfl).elim
      next => rfl
    rw [hdeeds, List.append_nil]
    exact h

/-! ### What calls come to in a network that is running -/

theorem perform_get (hrunning : w.registry.stopped = false) (oracle : World.Oracle) (name : String) :
    network.perform oracle (.get name) w =
      (match w.registry.nodes.get? name with
        | some node => .ok (.node node)
        | none => .error (.nodeNotFound name), w) := by
  have hnot : ¬ w.registry.stopped := by simp [hrunning]
  have hget : w.Ensures anything (fun result w' => (result, w') =
      (match w.registry.nodes.get? name with
        | some node => .ok (.node node)
        | none => .error (.nodeNotFound name), w)) ((Call.get name).operation network).run := by
    rw [Call.operation, World.ensures_run_map]
    refine Network.ensures_find (fun hstopped => absurd hstopped hnot) ?_ ?_
    · intro _ hnone
      rw [hnone]
      rfl
    · intro node _ hsome
      rw [hsome]
      rfl
  exact hget.run oracle

theorem perform_names (hrunning : w.registry.stopped = false) (oracle : World.Oracle) :
    network.perform oracle .names w = (.ok (.names w.registry.nodes.names), w) := by
  have hnot : ¬ w.registry.stopped := by simp [hrunning]
  have hnames : w.Ensures anything
      (fun result w' => (result, w') = (.ok (.names w.registry.nodes.names), w))
      (Call.names.operation network).run := by
    rw [Call.operation, World.ensures_run_map, Network.nodeNames, World.ensures_run_bind]
    exact Network.ensures_running (fun hstopped => absurd hstopped hnot) fun _ => rfl
  exact hnames.run oracle

theorem perform_all (hrunning : w.registry.stopped = false) (oracle : World.Oracle) :
    network.perform oracle .all w = (.ok (.nodes w.registry.nodes), w) := by
  have hnot : ¬ w.registry.stopped := by simp [hrunning]
  have hall : w.Ensures anything
      (fun result w' => (result, w') = (.ok (.nodes w.registry.nodes), w))
      (Call.all.operation network).run := by
    rw [Call.operation, World.ensures_run_map, Network.allNodes, World.ensures_run_bind]
    exact Network.ensures_running (fun hstopped => absurd hstopped hnot) fun _ => rfl
  exact hall.run oracle

theorem perform_remove (network : Network) (oracle : World.Oracle) (name : String) (w : World) :
    ∃ result w', network.perform oracle (.remove name) w = (result.map fun () => .done, w') ∧
      RemoveEnd name w result w' := by
  have hremove : w.Ensures anything
      (fun result w' => ∃ result', result = result'.map (fun () => .done) ∧ RemoveEnd name w result' w')
      ((Call.remove name).operation network).run := by
    rw [Call.operation, World.ensures_run_map]
    exact (Network.ensures_remove name w).ends fun result _ hend => ⟨result, rfl, hend⟩
  obtain ⟨result, hresult, hend⟩ := hremove.run oracle
  exact ⟨result, _, Prod.ext hresult rfl, hend⟩

theorem perform_add (network : Network) (oracle : World.Oracle) (config : NodeConfig) (w : World) :
    ∃ result w', network.perform oracle (.add config) w = (result.map .node, w') ∧
      AddEnd network config w result w' := by
  have hadd : w.Ensures anything
      (fun result w' => ∃ result', result = result'.map .node ∧ AddEnd network config w result' w')
      ((Call.add config).operation network).run := by
    rw [Call.operation, World.ensures_run_map]
    exact (network.ensures_add config w).ends fun result _ hend => ⟨result, rfl, hend⟩
  obtain ⟨result, hresult, hend⟩ := hadd.run oracle
  exact ⟨result, _, Prod.ext hresult rfl, hend⟩

theorem AddEnd.name_eq {config : NodeConfig} {node : Node} (h : AddEnd network config w (.ok node) w') :
    node.name = Network.chosenName config w.registry := by
  cases h with
  | started _ _ _ hstart =>
      cases hstart with
      | registered hsetUp => exact hsetUp.name_eq

theorem AddEnd.stopped_eq {config : NodeConfig} {result : Except NetworkError Node}
    (h : AddEnd network config w result w') : w'.registry.stopped = w.registry.stopped := by
  obtain ⟨nextNumber, hnaming⟩ := Network.afterNaming_eq config w.registry
  have hnamed : (w.named config).registry.stopped = w.registry.stopped := by
    rw [World.named, hnaming]
  cases h with
  | stopped _ => rfl
  | invalid _ _ => rfl
  | duplicate _ _ _ => exact hnamed
  | started _ _ _ hstart =>
      cases hstart with
      | failed hsetUp => exact (congrArg Registry.stopped hsetUp.registry_eq).trans hnamed
      | registered hsetUp => exact (congrArg Registry.stopped hsetUp.registry_eq).trans hnamed

theorem RemoveEnd.stopped_eq {name : String} {result : Except NetworkError Unit}
    (h : RemoveEnd name w result w') : w'.registry.stopped = w.registry.stopped := by
  cases h <;> rfl

/-- Only a stop stops a network. -/
theorem stopped_perform (hcall : call ≠ .stop) (hrunning : w.registry.stopped = false)
    (hperform : network.perform oracle call w = (result, w')) : w'.registry.stopped = false := by
  cases call with
  | add config =>
      obtain ⟨_, _, hadd, hend⟩ := perform_add network oracle config w
      cases hperform.symm.trans hadd
      exact hend.stopped_eq.trans hrunning
  | remove name =>
      obtain ⟨_, _, hremove, hend⟩ := perform_remove network oracle name w
      cases hperform.symm.trans hremove
      exact hend.stopped_eq.trans hrunning
  | get name =>
      cases hperform.symm.trans (perform_get hrunning oracle name)
      exact hrunning
  | names =>
      cases hperform.symm.trans (perform_names hrunning oracle)
      exact hrunning
  | all =>
      cases hperform.symm.trans (perform_all hrunning oracle)
      exact hrunning
  | stop => exact absurd rfl hcall

/-! ### Runs -/

theorem run_callAll_cons_iff {rest : List Call} :
    World.run oracle (network.callAll (call :: rest)) w = (results, w') ↔
      ∃ result w₁ others, network.perform oracle call w = (result, w₁) ∧
        World.run oracle (network.callAll rest) w₁ = (others, w') ∧ results = result :: others := by
  have hrun : World.run oracle (network.callAll (call :: rest)) w =
      ((network.perform oracle call w).1 ::
        (World.run oracle (network.callAll rest) (network.perform oracle call w).2).1,
        (World.run oracle (network.callAll rest) (network.perform oracle call w).2).2) := by
    rw [Network.callAll, List.mapM_cons, World.run_bind, World.run_bind]
    rfl
  rw [hrun, Prod.mk.injEq]
  constructor
  · rintro ⟨rfl, rfl⟩
    exact ⟨_, _, _, rfl, rfl, rfl⟩
  · rintro ⟨result, w₁, others, hcall, hrest, rfl⟩
    rw [hcall, hrest]
    exact ⟨rfl, rfl⟩

/-- A network that is running, with a log of what was done. -/
structure Logged (log : List Deed) (w : World) : Prop where
  running : w.registry.stopped = false
  recorded : ∃ roll, w.InOrder roll ∧ Records roll log

theorem World.InOrder.perform (h : w.InOrder roll)
    (hperform : network.perform oracle call w = (result, w')) :
    w'.InOrder (call.rollAfter result roll) := by
  have hrun := (ensures_call network call h).run oracle
  rwa [show World.run oracle _ w = _ from hperform] at hrun

theorem Logged.perform (h : Logged log w) (hcall : call ≠ .stop)
    (hperform : network.perform oracle call w = (result, w')) :
    Logged (log ++ call.deeds result) w' := by
  obtain ⟨roll, hroll, hrecords⟩ := h.recorded
  have hroll' := hroll.perform hperform
  exact ⟨stopped_perform hcall h.running hperform, _, hroll',
    hrecords.rollAfter hcall hroll'.enrolled.nodup_names⟩

theorem Logged.callAll (h : Logged log w) (hcalls : ∀ call ∈ calls, call ≠ .stop)
    (hrun : World.run oracle (network.callAll calls) w = (results, w')) :
    Logged (log ++ deedsOf calls results) w' := by
  induction calls generalizing log w results with
  | nil =>
      cases hrun
      rw [deedsOf, List.zip_nil_left, List.flatMap_nil, List.append_nil]
      exact h
  | cons call rest ih =>
      obtain ⟨result, w₁, others, hcall, hrest, rfl⟩ := run_callAll_cons_iff.mp hrun
      have hfirst := h.perform (hcalls call List.mem_cons_self) hcall
      have hothers := ih hfirst (fun call hmem => hcalls call (List.mem_cons_of_mem _ hmem)) hrest
      rwa [List.append_assoc] at hothers

/-! ### Look-ups by the log -/

variable {name : String} {node : Node}

/-- The node that is found under a name is the one that stands there. -/
theorem Logged.get?_eq_some_iff (h : Logged log w) :
    w.registry.nodes.get? name = some node ↔ node.name = name ∧ Stands log node := by
  obtain ⟨roll, hroll, hrecords⟩ := h.recorded
  rw [← hrecords node]
  constructor
  · intro hget
    have hmem : node ∈ w.registry.nodes.values :=
      List.mem_map_of_mem (f := Prod.snd) (Table.mem_of_get?_eq_some hget)
    exact ⟨hroll.enrolled.name_of_get? hget, hroll.enrolled.values.mem_iff.mpr hmem⟩
  · rintro ⟨rfl, hnode⟩
    exact hroll.enrolled.get?_of_mem hnode

theorem Logged.registered_iff (h : Logged log w) :
    Registered log name ↔ ∃ node, w.registry.nodes.get? name = some node := by
  rw [Localnet.registered_iff]
  exact exists_congr fun node => and_comm.trans h.get?_eq_some_iff.symm

theorem Logged.mem_names_iff (h : Logged log w) :
    name ∈ w.registry.nodes.names ↔ Registered log name := by
  rw [h.registered_iff, ← Table.contains_iff, Table.contains, Option.isSome_iff_exists]

/-- An addition under a name that is taken changes nothing. -/
theorem Logged.add_of_registered {config : NodeConfig} {valid : ValidatedNode} (h : Logged log w)
    (hname : config.name ≠ "") (hvalid : network.checked config = .ok valid)
    (htaken : Registered log config.name) (oracle : World.Oracle) :
    network.perform oracle (.add config) w =
      (.error (.invalid (.duplicateName config.name)), w) := by
  have hchosen : Network.chosenName config w.registry = config.name := if_neg hname
  have hnamed : w.named config = w := by
    rw [World.named, Network.afterNaming, if_neg hname]
  obtain ⟨result, w', hadd, hend⟩ := perform_add network oracle config w
  rw [hadd]
  cases hend with
  | stopped hstopped => cases h.running.symm.trans hstopped
  | invalid _ hinvalid => cases hvalid.symm.trans hinvalid
  | duplicate _ _ _ =>
      rw [hchosen, hnamed]
      rfl
  | started _ _ hfree _ =>
      rw [hchosen, h.mem_names_iff] at hfree
      exact absurd htaken hfree

/-- An addition under a name that is free comes to what the start of the node comes to. -/
theorem Logged.add_of_not_registered {config : NodeConfig} {valid : ValidatedNode} (h : Logged log w)
    (hname : config.name ≠ "") (hvalid : network.checked config = .ok valid)
    (hfree : ¬ Registered log config.name) (oracle : World.Oracle) :
    (∃ node, (network.perform oracle (.add config) w).1 = .ok (.node node) ∧ node.name = config.name) ∨
      ∃ e, (network.perform oracle (.add config) w).1 = .error (.start config.name e) := by
  have hchosen : Network.chosenName config w.registry = config.name := if_neg hname
  obtain ⟨result, w', hadd, hend⟩ := perform_add network oracle config w
  rw [hadd]
  have hnode : ∀ node, result = .ok node → node.name = config.name := by
    rintro node rfl
    exact hend.name_eq.trans hchosen
  cases hend with
  | stopped hstopped => cases h.running.symm.trans hstopped
  | invalid _ hinvalid => cases hvalid.symm.trans hinvalid
  | duplicate _ _ htaken =>
      rw [hchosen, h.mem_names_iff] at htaken
      exact absurd htaken hfree
  | started _ _ _ hstart =>
      cases hstart with
      | @failed e _ _ => exact .inr ⟨e, by rw [hchosen]; rfl⟩
      | @registered node _ _ => exact .inl ⟨node, rfl, hnode node rfl⟩

end

end Localnet
