import Localnet.Proofs.ByteOrder
import Localnet.Proofs.Network.Creation
import Localnet.Proofs.Network.Deeds

/-!
# A network as a map from names to nodes

Until it is stopped, a network answers as a map from names to nodes would that follows the creation and
the calls: what was registered under a name is found there until the name is removed, a name that is
found is taken, and one that is not is free.
-/

namespace Localnet

open List (Forall₂)
open World (anything)

/-- The name that a call is about. -/
def Call.subject? (r : Registry) : Call → Option String
  | .add config => some (Network.chosenName config r)
  | .remove name | .get name => some name
  | .names | .all | .stop => none

/-- What a network answers next, if a log is of what was done until then. -/
structure Network.Follows (network : Network) (oracle : World.Oracle) (log : List Deed) (w : World) :
    Prop where
  get_isOk : ∀ name, (network.perform oracle (.get name) w).1.isOk ↔ Registered log name
  /-- The node that is found was registered last. -/
  get : ∀ name node, network.perform oracle (.get name) w = (.ok (.node node), w) ↔
    node.name = name ∧ Stands log node
  get_error : ∀ name, ¬ Registered log name →
    network.perform oracle (.get name) w = (.error (.nodeNotFound name), w)
  remove_isOk : ∀ name, (network.perform oracle (.remove name) w).1.isOk ↔
    (network.perform oracle (.get name) w).1.isOk
  remove_error : ∀ name, ¬ Registered log name →
    network.perform oracle (.remove name) w = (.error (.nodeNotFound name), w)
  /-- A valid node with a name of its own is refused if and only if there is a node under the name. -/
  add_duplicate : ∀ config valid, config.name ≠ "" → network.checked config = .ok valid →
    ((network.perform oracle (.add config) w).1 = .error (.invalid (.duplicateName config.name)) ↔
      (network.perform oracle (.get config.name) w).1.isOk)
  /-- Under a name that is free, or free again, it is registered if it starts. -/
  add_free : ∀ config valid, config.name ≠ "" → network.checked config = .ok valid →
    ¬ Registered log config.name →
    (∃ node, (network.perform oracle (.add config) w).1 = .ok (.node node) ∧ node.name = config.name) ∨
      ∃ e, (network.perform oracle (.add config) w).1 = .error (.start config.name e)
  /-- All names, in the order of their bytes, and all nodes, each under its own name. -/
  listed : ∃ nodes : Table Node, network.perform oracle .all w = (.ok (.nodes nodes), w) ∧
    network.perform oracle .names w = (.ok (.names nodes.names), w) ∧
    nodes.names.Pairwise (fun a b => utf8Bytes a < utf8Bytes b) ∧
    (∀ entry ∈ nodes.entries, entry.2.name = entry.1) ∧ ∀ node, node ∈ nodes.values ↔ Stands log node
  /-- A call about one name changes nothing about another. -/
  others : ∀ call name, call ≠ .stop → call.subject? w.registry ≠ some name →
    (network.perform oracle (.get name) (network.perform oracle call w).2).1 =
      (network.perform oracle (.get name) w).1

variable {network : Network} {oracle : World.Oracle} {call : Call}
  {result : Except NetworkError Answer} {log : List Deed} {w w' : World} {name : String}

theorem Logged.get_isOk_iff (h : Logged log w) :
    (network.perform oracle (.get name) w).1.isOk ↔ Registered log name := by
  rw [perform_get h.running, h.registered_iff]
  cases w.registry.nodes.get? name with
  | none => simp [Except.isOk, Except.toBool]
  | some node => simp [Except.isOk, Except.toBool]

theorem Logged.get_of_not_registered (h : Logged log w) (hfree : ¬ Registered log name) :
    w.registry.nodes.get? name = none := by
  rw [h.registered_iff] at hfree
  exact Option.eq_none_iff_forall_ne_some.mpr fun node hnode => hfree ⟨node, hnode⟩

/-- A call does one thing at most, and it is about the name that the call is about. -/
theorem deeds_eq_or (hperform : network.perform oracle call w = (result, w')) :
    call.deeds result = [] ∨
      ∃ deed, call.deeds result = [deed] ∧ call.subject? w.registry = some deed.name := by
  cases call with
  | add config =>
      obtain ⟨result', w'', hadd, hend⟩ := perform_add network oracle config w
      cases hperform.symm.trans hadd
      cases result' with
      | ok node => exact .inr ⟨.registered node, rfl, congrArg some hend.name_eq.symm⟩
      | error e => exact .inl rfl
  | remove other =>
      cases result with
      | ok answer => exact .inr ⟨.removed other, rfl, rfl⟩
      | error e => exact .inl rfl
  | _ => exact .inl rfl

theorem Logged.get_of_ne (h : Logged log w) (hcall : call ≠ .stop)
    (hperform : network.perform oracle call w = (result, w'))
    (hname : call.subject? w.registry ≠ some name) :
    w'.registry.nodes.get? name = w.registry.nodes.get? name := by
  have h' := h.perform hcall hperform
  refine Option.ext fun node => ?_
  rw [h'.get?_eq_some_iff, h.get?_eq_some_iff]
  refine and_congr_right fun hnode => ?_
  rcases deeds_eq_or hperform with hnil | ⟨deed, hdeed, hsubject⟩
  · rw [hnil, List.append_nil]
  · have hne : deed.name ≠ node.name := by
      rintro heq
      exact hname (by rw [hsubject, heq, hnode])
    rw [hdeed, stands_concat]
    constructor
    · rintro (rfl | ⟨hstands, -⟩)
      · exact absurd rfl hne
      · exact hstands
    · exact fun hstands => .inr ⟨hstands, hne⟩

theorem Logged.follows (h : Logged log w) (network : Network) (oracle : World.Oracle) :
    network.Follows oracle log w where
  get_isOk name := h.get_isOk_iff
  get name node := by
    rw [perform_get h.running, ← h.get?_eq_some_iff]
    cases w.registry.nodes.get? name <;> simp
  get_error name hfree := by
    rw [perform_get h.running, h.get_of_not_registered hfree]
  remove_isOk name := by
    rw [h.get_isOk_iff]
    obtain ⟨result, w', hremove, hend⟩ := perform_remove network oracle name w
    rw [hremove]
    cases hend with
    | stopped hstopped => cases h.running.symm.trans hstopped
    | notFound _ hnone =>
        refine iff_of_false nofun fun htaken => ?_
        obtain ⟨node, hnode⟩ := h.registered_iff.mp htaken
        cases hnone.symm.trans hnode
    | removed _ hsome => exact iff_of_true rfl (h.registered_iff.mpr ⟨_, hsome⟩)
  remove_error name hfree := by
    have hnone := h.get_of_not_registered hfree
    obtain ⟨result, w', hremove, hend⟩ := perform_remove network oracle name w
    rw [hremove]
    cases hend with
    | stopped hstopped => cases h.running.symm.trans hstopped
    | notFound _ _ => rfl
    | removed _ hsome => cases hnone.symm.trans hsome
  add_duplicate config valid hname hvalid := by
    rw [h.get_isOk_iff]
    constructor
    · intro hduplicate
      by_contra hfree
      rcases h.add_of_not_registered hname hvalid hfree oracle with ⟨node, hok, -⟩ | ⟨e, herror⟩
      · cases hduplicate.symm.trans hok
      · cases hduplicate.symm.trans herror
    · intro htaken
      rw [h.add_of_registered hname hvalid htaken]
  add_free config valid hname hvalid hfree := h.add_of_not_registered hname hvalid hfree oracle
  listed := by
    obtain ⟨roll, hroll, hrecords⟩ := h.recorded
    refine ⟨w.registry.nodes, perform_all h.running oracle, perform_names h.running oracle,
      w.registry.nodes.pairwise_names, fun entry hentry => (hroll.enrolled.keyed entry hentry).symm, ?_⟩
    exact fun node => hroll.enrolled.values.mem_iff.symm.trans (hrecords node)
  others call name hcall hname := by
    have hperform : network.perform oracle call w = (_, (network.perform oracle call w).2) := rfl
    have hrunning := stopped_perform hcall h.running hperform
    rw [perform_get h.running, perform_get hrunning, h.get_of_ne hcall hperform hname]

/-- The log of a network that was just created. -/
theorem logged_of_create {config : NetworkConfig}
    (h : World.run oracle (Network.create config).run .blank = (.ok network, w)) :
    ∃ entries ups, Aligned config network.networkId entries ∧ Forall₂ (CameUp network) entries ups ∧
      Logged (ups.map fun up => .registered up.1) w := by
  have hcreated : World.blank.Ensures anything
      (fun result w => ∀ network, result = .ok network → ∃ entries ups,
        Aligned config network.networkId entries ∧ Forall₂ (CameUp network) entries ups ∧
          w.InOrder (ups.map (·.1)))
      (Network.create config).run := by
    refine ensures_create_of (fun _ _ => nofun) (fun _ _ => trivial) (fun _ _ _ => nofun) ?_
    intro valid root hvalid
    have haligned := (Validation.accepted_of_validate hvalid).aligned
    refine (ensures_startNodes_inTurn (.ofValid config valid root) _ (.rooted root valid.generated)
      (haligned.names ▸ (Validation.accepted_of_validate hvalid).nodup)).mono (fun _ _ => id) ?_
    rintro result w ⟨ups, hinTurn, hw⟩ network hnetwork
    cases hinTurn with
    | all hups _ =>
        cases hnetwork
        exact ⟨_, ups, haligned, hups, hw⟩
    | upTo _ _ _ _ => cases hnetwork
  have hrunning : World.blank.Ensures anything
      (fun result w => result.isOk → ∃ roll, w.InOrder roll ∧ w.registry.stopped = false)
      (Network.create config).run :=
    ensures_create_register (P := fun _ r => r.stopped = false) (fun _ hr _ => hr) (fun _ => rfl) config
  have hrun := (hcreated.and hrunning).run oracle
  rw [h] at hrun
  obtain ⟨hcreated, hrunning⟩ := hrun
  obtain ⟨entries, ups, haligned, hups, hw⟩ := hcreated network rfl
  obtain ⟨-, -, hrunning⟩ := hrunning rfl
  refine ⟨entries, ups, haligned, hups, hrunning, _, hw, ?_⟩
  have hrecords := records_registered hw.enrolled.nodup_names
  rwa [List.map_map] at hrecords

/-- **A map from names to nodes.** A network registers the nodes of its configuration when it is created,
and until it is stopped it answers every call as the map does that follows all registrations and
removals since. -/
theorem lookups_follow_deeds {config : NetworkConfig}
    (hcreate : World.run oracle (Network.create config).run .blank = (.ok network, w)) :
    ∃ entries ups, Aligned config network.networkId entries ∧ Forall₂ (CameUp network) entries ups ∧
      ∀ (calls : List Call) (oracle' : World.Oracle) (results : List (Except NetworkError Answer))
        (w' : World), (∀ call ∈ calls, call ≠ .stop) →
        World.run oracle' (network.callAll calls) w = (results, w') →
        ∀ oracle'', network.Follows oracle''
          (ups.map (fun up => .registered up.1) ++ deedsOf calls results) w' := by
  obtain ⟨entries, ups, haligned, hups, hlogged⟩ := logged_of_create hcreate
  refine ⟨entries, ups, haligned, hups, fun calls oracle' results w' hcalls hrun oracle'' => ?_⟩
  exact (hlogged.callAll hcalls hrun).follows network oracle''

/-- A name is given up and taken again. -/
def reusingCalls : List Call :=
  [.remove "a", .get "a", .add (plainNode "a"), .add (plainNode "a"), .add (plainNode ""), .get "a"]

theorem lookups_follow_reusingCalls :
    ∃ (network : Network) (w w' : World) (entries : List Entry) (ups : List (Node × List Event))
        (results : List (Except NetworkError Answer)),
      World.run willingHost (Network.create soloConfig).run .blank = (.ok network, w) ∧
      Aligned soloConfig network.networkId entries ∧ Forall₂ (CameUp network) entries ups ∧
      World.run willingHost (network.callAll reusingCalls) w = (results, w') ∧
      results.map (·.isOk) = [true, false, true, false, true, true] ∧
      network.Follows willingHost
        (ups.map (fun up => .registered up.1) ++ deedsOf reusingCalls results) w' := by
  have hends :
      (match World.run willingHost (Network.create soloConfig).run .blank with
        | (.ok network, w) =>
          (World.run willingHost (network.callAll reusingCalls) w).1.map (·.isOk) ==
            [true, false, true, false, true, true]
        | (.error _, _) => false) = true := by
    decide +kernel
  split at hends
  next network w hcreate =>
    obtain ⟨entries, ups, haligned, hups, hfollows⟩ := lookups_follow_deeds hcreate
    refine ⟨network, w, _, entries, ups, _, hcreate, haligned, hups, rfl, eq_of_beq hends, ?_⟩
    refine hfollows reusingCalls willingHost _ _ ?_ rfl willingHost
    simp [reusingCalls]
  next => cases hends

end Localnet
