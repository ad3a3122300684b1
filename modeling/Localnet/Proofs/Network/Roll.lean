import Localnet.Proofs.Network.Books
import Localnet.Proofs.Network.Ends

/-!
# The roll of a network

The roll lists the registered nodes in the order in which they were registered last. The registry is a
table of them, and the beacons are those nodes on the roll that are beacons; the books are in order for
the nodes on the roll. Every operation keeps this, with the roll that its result calls for.
-/

namespace Localnet

open scoped List

/-- A registry holds the nodes on a roll. -/
structure Enrolled (roll : List Node) (r : Registry) : Prop where
  values : roll.Perm r.nodes.values
  keyed : ∀ entry ∈ r.nodes.entries, entry.1 = entry.2.name
  beacons : r.beacons = roll.filterMap Registry.beaconOf?

namespace Enrolled

variable {roll : List Node} {r : Registry} {node : Node} {name : String}

theorem empty (nextNumber : Nat) : Enrolled [] (.empty nextNumber) := by
  refine ⟨.nil, ?_, rfl⟩
  intro entry hentry
  cases hentry

theorem names_perm (h : Enrolled roll r) : (roll.map (·.name)).Perm r.nodes.names := by
  refine (h.values.map _).trans (.of_eq ?_)
  rw [Table.values, Table.names, List.map_map]
  exact List.map_congr_left fun entry hentry => (h.keyed entry hentry).symm

theorem nodup_names (h : Enrolled roll r) : (roll.map (·.name)).Nodup :=
  h.names_perm.nodup_iff.mpr r.nodes.nodup_names

theorem get?_of_mem (h : Enrolled roll r) (hmem : node ∈ roll) :
    r.nodes.get? node.name = some node := by
  obtain ⟨entry, hentry, rfl⟩ := List.mem_map.mp (h.values.mem_iff.mp hmem)
  rw [← h.keyed entry hentry]
  exact Table.get?_eq_some_of_mem hentry

theorem not_mem_names {names : List String} (h : Enrolled roll r)
    (hnodup : (roll.map (·.name) ++ names).Nodup) (hname : name ∈ names) : name ∉ r.nodes.names := by
  rw [← h.names_perm.mem_iff]
  exact fun hmem => List.disjoint_of_nodup_append hnodup hmem hname

/-- The nodes on the roll are found under their names, and none under a name that is not on it. -/
theorem filterMap_get? {names : List String} (h : Enrolled roll r)
    (hinitial : roll.map (·.name) <+: names) (hnodup : names.Nodup) :
    names.filterMap r.nodes.get? = roll := by
  obtain ⟨rest, rfl⟩ := hinitial
  have hroll : (roll.map (·.name)).filterMap r.nodes.get? = roll := by
    rw [List.filterMap_map, List.filterMap_congr (g := some)]
    · exact List.filterMap_some
    · exact fun node hnode => h.get?_of_mem hnode
  have hrest : rest.filterMap r.nodes.get? = [] := by
    refine List.filterMap_eq_nil_iff.mpr fun name hname => Table.get?_eq_none_of_not_mem ?_
    exact h.not_mem_names hnodup hname
  rw [List.filterMap_append, hroll, hrest, List.append_nil]

theorem name_of_get? (h : Enrolled roll r) (hget : r.nodes.get? name = some node) :
    node.name = name :=
  (h.keyed _ (Table.mem_of_get?_eq_some hget)).symm

/-- Nothing but the nodes and the beacons matters. -/
theorem of_eq {r' : Registry} (h : Enrolled roll r) (hnodes : r'.nodes = r.nodes)
    (hbeacons : r'.beacons = r.beacons) : Enrolled roll r' where
  values := hnodes ▸ h.values
  keyed := hnodes ▸ h.keyed
  beacons := hbeacons ▸ h.beacons

theorem register (h : Enrolled roll r) (hfree : node.name ∉ r.nodes.names) :
    Enrolled (roll ++ [node]) (r.register node) where
  values :=
    calc roll ++ [node] ~ node :: roll := List.perm_append_singleton node roll
      _ ~ node :: r.nodes.values := h.values.cons node
      _ ~ (r.register node).nodes.values := (Table.values_insert_perm hfree).symm
  keyed entry hentry := by
    rcases List.mem_cons.mp ((Table.entries_insert_perm hfree).mem_iff.mp hentry) with rfl | hentry
    · rfl
    · exact h.keyed entry hentry
  beacons := by
    simp only [Registry.register, h.beacons, List.filterMap_append]
    cases hbeacon : Registry.beaconOf? node <;> simp [hbeacon]

theorem values_erase (h : Enrolled roll r) (name : String) :
    (r.nodes.erase name).values = r.nodes.values.filter (·.name ≠ name) := by
  change (r.nodes.entries.filter _).map _ = (r.nodes.entries.map _).filter _
  rw [List.filter_map]
  refine congrArg _ (List.filter_congr fun entry hentry => ?_)
  simp [h.keyed entry hentry]

theorem unregister (h : Enrolled roll r) (node : Node) :
    Enrolled (roll.filter (·.name ≠ node.name)) (r.unregister node) where
  values := by
    rw [Registry.unregister, h.values_erase]
    exact h.values.filter _
  keyed entry hentry := h.keyed entry (List.mem_filter.mp hentry).1
  beacons := by
    rw [Registry.unregister, h.beacons, List.filter_filterMap, List.filterMap_filter]
    refine List.filterMap_congr fun other _ => ?_
    unfold Registry.beaconOf?
    split <;> simp [Option.filter]

theorem perm_cons_filter (h : Enrolled roll r) (hget : r.nodes.get? node.name = some node) :
    roll.Perm (node :: roll.filter (·.name ≠ node.name)) :=
  calc roll ~ r.nodes.values := h.values
    _ ~ node :: (r.nodes.erase node.name).values := Table.values_erase_perm hget
    _ ~ node :: roll.filter (·.name ≠ node.name) := by
      rw [h.values_erase]
      exact (h.values.filter _).symm.cons node

end Enrolled

/-- The node that came of a start, if one did. -/
def newcomers {ε : Type} : Except ε Node → List Node
  | .ok node => [node]
  | .error _ => []

namespace Books

variable {roll : List Node} {history : List Event}

theorem prepared {events : List Event} (h : Books roll history)
    (hevents : ∀ e ∈ events, e.request.isPreparation) : Books roll (events ++ history) := by
  induction events with
  | nil => exact h
  | cons e rest ih =>
      have hrest := ih fun other hother => hevents other (List.mem_cons_of_mem e hother)
      obtain ⟨request, reply⟩ := e
      have hrequest : request.isPreparation := hevents _ List.mem_cons_self
      refine hrest.skip ?_ ?_ ?_ ?_ <;> cases request <;> first | rfl | cases hrequest

theorem setUp {network : Network} {isPlan : Plan → Prop} {w w' : World}
    {result : Except Failure Node} (h : Books roll w.history)
    (hend : SetUpEnd network isPlan w result w') :
    Books (newcomers result ++ roll) w'.history := by
  have hprepared : ∀ {w' : World}, w.Prepared w' → Books roll w'.history := by
    rintro w' ⟨-, events, hevents, hhistory⟩
    exact hhistory ▸ h.prepared hevents
  have hlaunched : ∀ {w' : World} (plan : Plan) (reply : Except Failure Process),
      w.Prepared w' → Books roll (plan.launch network w' reply).history :=
    fun _ _ hw => (hprepared hw).skip rfl rfl rfl rfl
  -- the number of a process that is launched is one that no event knows yet
  have hfresh : ∀ {w' : World} (plan : Plan), w.Prepared w' →
      timesOf Localnet.processes.opened (plan.processIn w')
        (plan.launch network w' (.ok (plan.processIn w'))).history = 0 := by
    intro w' plan hw
    have hzero := (hprepared hw).processes.timesOf_opened_eq_zero (x := plan.processIn w') (Nat.le_refl _)
    rw [Plan.launch, World.record, timesOf_cons, hzero]
    rfl
  cases hend with
  | unprepared hw => exact hprepared hw
  | @unlaunched w' plan e hw _ => exact hlaunched plan (.error e) hw
  | @unstarted w' plan e hw _ => exact (hlaunched plan (.ok (plan.processIn w')) hw).skip rfl rfl rfl rfl
  | @unconnected w' plan e reply hw _ =>
      exact (hlaunched plan _ hw).givesUp (hfresh plan hw) (Nat.le_succ _)
  | @ready w' plan hw _ =>
      exact (hlaunched plan _ hw).takesIn
        (plan.nodeIn network (plan.clientIn w') (plan.processIn w')) (hfresh plan hw)
        (Nat.le_succ _) rfl

theorem shutDowns {nodes : List Node} {history' : List Event} (h : Books nodes history)
    (hshutDowns : ShutDowns nodes history history') : Books [] history' := by
  induction hshutDowns with
  | nil => exact h
  | cons _ ih => exact ih h.shutDown

end Books

end Localnet
