import Localnet.Proofs.Network.Deeds
import Localnet.Proofs.Network.FailedAdd
import Localnet.Proofs.Network.Growth

/-!
# Names that are given once

A node that comes without a name is given one with a number, at creation or when it is added. The number
of the next one only grows: every name that is given is passed, also if its node does not start, and no
removal takes that back. So no name is given twice in the life of a network.
-/

namespace Localnet

open Names (generated)
open Network (chosenName afterNaming)

/-- The name that was generated for a node that was to be added, as the result tells it. -/
def Call.givenName? : Call → Except NetworkError Answer → Option String
  | .add config, .ok (.node node) => if config.name = "" then some node.name else none
  | .add config, .error (.start name _) => if config.name = "" then some name else none
  | _, _ => none

/-- The number of the first free name is picked, and it is passed. -/
structure Registry.Picks (r : Registry) (n : Nat) (r' : Registry) : Prop where
  least : IsLeast {m | r.nextNumber ≤ m ∧ generated m ∉ r.nodes.names} n
  search : ∃ tries ≤ r.nodes.values.length + 1, Names.Search r.nodes.names r.nextNumber n tries
  passed : r'.nextNumber = n + 1

/-- A node is refused before it is given a name: the network is stopped, or the node is not valid. -/
def RefusedUnnamed (network : Network) (config : NodeConfig) (result : Except NetworkError Answer)
    (w w' : World) : Prop :=
  (w.registry.stopped ∨ ¬ (network.checked config).isOk) ∧
    (Call.add config).givenName? result = none ∧ w' = w

/-- The life of a network with all the names that were generated in it, the first one first. -/
inductive NamedLife : Network → List String → World → Prop
  | created {config : NetworkConfig} {oracle : World.Oracle} {network : Network} {w : World} :
      World.run oracle (Network.create config).run .blank = (.ok network, w) →
      NamedLife network (Names.given config.nodes) w
  | called {network : Network} {names : List String} {w w' : World} {call : Call}
      {oracle : World.Oracle} {result : Except NetworkError Answer} :
      NamedLife network names w → network.perform oracle call w = (result, w') →
      NamedLife network (names ++ (call.givenName? result).toList) w'

/-- Names with increasing numbers, all of them below another one. -/
def Numbered (names : List String) (next : Nat) : Prop :=
  ∃ numbers : List Nat, names = numbers.map generated ∧ numbers.Pairwise (· < ·) ∧ ∀ n ∈ numbers, n < next

namespace Numbered

variable {names : List String} {next n : Nat}

theorem nodup (h : Numbered names next) : names.Nodup := by
  obtain ⟨numbers, rfl, hincreasing, -⟩ := h
  have hdistinct : numbers.Nodup := hincreasing.imp Nat.ne_of_lt
  exact hdistinct.map Names.generated_injective

theorem range (count : Nat) : Numbered ((List.range count).map generated) count :=
  ⟨List.range count, rfl, List.pairwise_lt_range, fun _ => List.mem_range.mp⟩

theorem concat (h : Numbered names next) (hn : next ≤ n) :
    Numbered (names ++ [generated n]) (n + 1) := by
  obtain ⟨numbers, rfl, hincreasing, hbelow⟩ := h
  have hlt : ∀ m ∈ numbers, m < n := fun m hm => Nat.lt_of_lt_of_le (hbelow m hm) hn
  refine ⟨numbers ++ [n], ?_, ?_, ?_⟩
  · rw [List.map_append, List.map_singleton]
  · rw [List.pairwise_append]
    refine ⟨hincreasing, List.pairwise_singleton _ n, fun m hm last hlast => ?_⟩
    rw [List.mem_singleton.mp hlast]
    exact hlt m hm
  · intro m hm
    rcases List.mem_append.mp hm with hm | hm
    · exact Nat.lt_succ_of_lt (hlt m hm)
    · rw [List.mem_singleton.mp hm]
      exact Nat.lt_succ_self n

end Numbered

variable {network : Network} {w w' : World} {names : List String}

/-- A node without a name that is not refused is given the first one that is free. -/
theorem AddEnd.picks {config : NodeConfig} {result : Except NetworkError Node} (hname : config.name = "")
    (h : AddEnd network config w result w') :
    RefusedUnnamed network config (result.map .node) w w' ∨
      ∃ n, (Call.add config).givenName? (result.map .node) = some (generated n) ∧
        w.registry.Picks n w'.registry := by
  obtain ⟨n, hnext, tries, hle, hsearch⟩ :=
    Names.search_nextFree w.registry.nextNumber w.registry.nodes.names
  have hleast := hsearch.isLeast
  have hchosen : chosenName config w.registry = generated n := by
    rw [Network.chosenName, if_pos hname, hnext]
  have hnumber : (w.named config).registry.nextNumber = n + 1 := by
    rw [World.named, Network.afterNaming, if_pos hname, hnext]
  have hlength : w.registry.nodes.names.length = w.registry.nodes.values.length := by
    rw [Table.names, Table.values, List.length_map, List.length_map]
  have hpicks : w'.registry.nextNumber = (w.named config).registry.nextNumber →
      w.registry.Picks n w'.registry := by
    intro heq
    exact ⟨hleast, ⟨tries, hlength ▸ hle, hsearch⟩, heq.trans hnumber⟩
  cases h with
  | stopped hstopped => exact .inl ⟨.inl hstopped, rfl, rfl⟩
  | invalid _ hchecked =>
      refine .inl ⟨.inr ?_, rfl, rfl⟩
      rw [hchecked]
      exact Bool.false_ne_true
  | duplicate _ _ htaken =>
      rw [hchosen] at htaken
      exact absurd htaken hleast.1.2
  | started _ _ _ hstart =>
      refine .inr ⟨n, ?_, hpicks hstart.registry_kept.1⟩
      cases hstart with
      | failed _ =>
          change (if config.name = "" then some (chosenName config w.registry) else none) = _
          rw [if_pos hname, hchosen]
      | @registered node _ hsetUp =>
          change (if config.name = "" then some node.name else none) = _
          rw [if_pos hname, hsetUp.name_eq, hchosen]

theorem perform_unnamed {config : NodeConfig} {oracle : World.Oracle}
    {result : Except NetworkError Answer} (hname : config.name = "")
    (h : network.perform oracle (.add config) w = (result, w')) :
    RefusedUnnamed network config result w w' ∨
      ∃ n, (Call.add config).givenName? result = some (generated n) ∧
        w.registry.Picks n w'.registry := by
  obtain ⟨_, _, hadd, hend⟩ := perform_add network oracle config w
  cases h.symm.trans hadd
  exact hend.picks hname

/-- Any other call gives no name, and uses up no number. -/
theorem perform_named {call : Call} {oracle : World.Oracle} {result : Except NetworkError Answer}
    (hcall : ∀ config, call = .add config → config.name ≠ "")
    (h : network.perform oracle call w = (result, w')) :
    call.givenName? result = none ∧ w'.registry.nextNumber = w.registry.nextNumber := by
  constructor
  · unfold Call.givenName?
    split
    next config _ => exact if_neg (hcall config rfl)
    next config _ _ => exact if_neg (hcall config rfl)
    next => rfl
  · have hnumbers := (ensures_numbers network call w).run oracle
    rw [show World.run oracle (call.operation network).run w = _ from h] at hnumbers
    by_contra hne
    obtain ⟨config, hadd, hname, -⟩ := hnumbers.changed hne
    exact hcall config hadd hname

theorem nextNumber_of_create {config : NetworkConfig} {oracle : World.Oracle}
    (h : World.run oracle (Network.create config).run .blank = (.ok network, w)) :
    w.registry.nextNumber = Names.generatedCount config.nodes := by
  obtain ⟨valid, root, hvalid, -, rfl, hrun⟩ := starts_of_create h
  have hkept := (ensures_startNodes_kept (.ofValid config valid root)
    (config.nodes.zip (valid.names.zip valid.nodes)) (.rooted root valid.generated)).run oracle
  rw [hrun] at hkept
  exact hkept.1.trans (Validation.accepted_of_validate hvalid).generated

theorem NamedLife.numbered (h : NamedLife network names w) : Numbered names w.registry.nextNumber := by
  induction h with
  | @created config oracle network w hcreate =>
      rw [Names.given_eq, nextNumber_of_create hcreate]
      exact .range _
  | @called network names w w' call oracle result _ hperform ih =>
      by_cases hunnamed : ∃ config, call = .add config ∧ config.name = ""
      · obtain ⟨config, rfl, hname⟩ := hunnamed
        rcases perform_unnamed hname hperform with ⟨-, hnone, rfl⟩ | ⟨n, hgiven, hpicks⟩
        · rw [hnone, Option.toList_none, List.append_nil]
          exact ih
        · rw [hgiven, Option.toList_some, hpicks.passed]
          exact ih.concat hpicks.least.1.1
      · have hcall : ∀ config, call = .add config → config.name ≠ "" :=
          fun config hadd hname => hunnamed ⟨config, hadd, hname⟩
        obtain ⟨hnone, hnumber⟩ := perform_named hcall hperform
        rw [hnone, Option.toList_none, List.append_nil, hnumber]
        exact ih

/-- **Generated names.** All names that are generated in the life of a network are distinct, at creation
and for the nodes that are added, whether they come up or not. A node that is added without a name is
refused and leaves everything as it is, or it is given the first name from the network's number on that no
registered node has; the search for it has at most one more try than there are nodes. -/
theorem generated_names_are_fresh (h : NamedLife network names w) :
    names.Nodup ∧
      ∀ config, config.name = "" → ∀ oracle result w',
        network.perform oracle (.add config) w = (result, w') →
        RefusedUnnamed network config result w w' ∨
          ∃ n, (Call.add config).givenName? result = some (generated n) ∧
            w.registry.Picks n w'.registry :=
  ⟨h.numbered.nodup, fun _ hname _ _ _ => perform_unnamed hname⟩

theorem NamedLife.callAll {calls : List Call} {oracle : World.Oracle}
    {results : List (Except NetworkError Answer)} (h : NamedLife network names w)
    (hrun : World.run oracle (network.callAll calls) w = (results, w')) :
    NamedLife network
      (names ++ (calls.zip results).flatMap fun x => (x.1.givenName? x.2).toList) w' := by
  induction calls generalizing names w results with
  | nil =>
      cases hrun
      rw [List.zip_nil_left, List.flatMap_nil, List.append_nil]
      exact h
  | cons call rest ih =>
      obtain ⟨result, w₁, others, hcall, hrest, rfl⟩ := run_callAll_cons_iff.mp hrun
      rw [List.zip_cons_cons, List.flatMap_cons, ← List.append_assoc]
      exact ih (.called h hcall) hrest

/-- A beacon without a name, and a node whose name is ahead of the generated ones. -/
def aheadConfig : NetworkConfig :=
  { soloConfig with nodes := [{ plainNode "" with isBeacon := true }, plainNode "node-2"] }

/-- A host that has no client for one node. -/
def snubbingHost (name : String) : World.Oracle := fun history request =>
  match request with
  | .connect node _ _ _ => if node = name then .error ⟨"refused", []⟩ else .ok ()
  | request => willingHost history request

/-- The third name is that of a node that does not come up; the first one is free again by the end. -/
def nameless : List Call := [.add (plainNode ""), .add (plainNode ""), .remove "node-0"]

theorem generated_names_are_fresh_ahead :
    ∃ (network : Network) (w w' : World) (result : Except NetworkError Answer),
      NamedLife network ["node-0", "node-1", "node-3"] w ∧
      w.registry.nodes.names = ["node-1", "node-2"] ∧
      network.perform willingHost (.add (plainNode "")) w = (result, w') ∧
      ["node-0", "node-1", "node-3"].Nodup ∧
      (RefusedUnnamed network (plainNode "") result w w' ∨
        ∃ n, (Call.add (plainNode "")).givenName? result = some (generated n) ∧
          w.registry.Picks n w'.registry) := by
  have hends :
      (match World.run willingHost (Network.create aheadConfig).run .blank with
        | (.ok network, w) =>
          match World.run (snubbingHost "node-3") (network.callAll nameless) w with
          | (results, w) =>
            Names.given aheadConfig.nodes ++
                (nameless.zip results).flatMap (fun x => (x.1.givenName? x.2).toList) =
              ["node-0", "node-1", "node-3"] &&
            w.registry.nodes.names = ["node-1", "node-2"]
        | (.error _, _) => false) = true := by
    decide +kernel
  split at hends
  next network w hcreate =>
    cases hcalls : World.run (snubbingHost "node-3") (network.callAll nameless) w with
    | mk results w₁ =>
        rw [hcalls] at hends
        simp only [Bool.and_eq_true, decide_eq_true_eq] at hends
        obtain ⟨hnames, hleft⟩ := hends
        have hlife := (NamedLife.created hcreate).callAll hcalls
        rw [hnames] at hlife
        cases hperform : network.perform willingHost (.add (plainNode "")) w₁ with
        | mk result w₂ =>
            obtain ⟨hnodup, hpicks⟩ := generated_names_are_fresh hlife
            exact ⟨network, w₁, w₂, result, hlife, hleft, hperform, hnodup,
              hpicks (plainNode "") rfl willingHost result w₂ hperform⟩
  next => cases hends

end Localnet
