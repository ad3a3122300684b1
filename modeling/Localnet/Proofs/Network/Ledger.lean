import Localnet.Proofs.Network.Life
import Mathlib.Logic.ExistsUnique

/-!
# The ledger

Whenever no call is under way, every process that was started and every client that was handed out is
accounted for: a registered node has it, or it was given up once.
-/

namespace Localnet

/-- Every handle of a kind that was ever opened is one registered node's and was never closed, or is
nobody's and was closed once. No two nodes have the same one. -/
structure HandleKind.AccountedFor {H : Type} [DecidableEq H] (kind : HandleKind H)
    (handleOf : Node → H) (w : World) : Prop where
  unshared : (w.registry.nodes.values.map handleOf).Nodup
  settled : ∀ e ∈ w.history, ∀ x, kind.opened e = some x →
    ((∃! node, node ∈ w.registry.nodes.values ∧ handleOf node = x) ∧
      timesOf kind.closed x w.history = 0) ∨
    ((∀ node ∈ w.registry.nodes.values, handleOf node ≠ x) ∧
      timesOf kind.closed x w.history = 1)

structure Ledger (w : World) : Prop where
  processes : processes.AccountedFor Node.process w
  clients : clients.AccountedFor Node.client w
  /-- A registered node has a process that was started, and the client that was handed out for it. -/
  served : ∀ node ∈ w.registry.nodes.values, Serves w.history node.client node.process
  /-- A process with a client was asked to stop only after the client was closed. -/
  closedFirst : ∀ client process, Serves w.history client process → ∀ reply earlier,
    ⟨.stop process, reply⟩ :: earlier <:+ w.history → ⟨.close client, ()⟩ ∈ earlier

theorem HandleKind.Balanced.accountedFor {H : Type} [DecidableEq H] {kind : HandleKind H}
    {handleOf : Node → H} {w : World}
    (h : kind.Balanced (w.registry.nodes.values.map handleOf) w.history) :
    kind.AccountedFor handleOf w where
  unshared := h.nodup
  settled e hmem x hopened := by
    have hpos := timesOf_pos_of_mem hmem hopened
    rcases h.settled x with ⟨hheld, _, hzero⟩ | ⟨hnot, heq, hle⟩
    · obtain ⟨node, hnode, rfl⟩ := List.mem_map.mp hheld
      refine .inl ⟨⟨node, ⟨hnode, rfl⟩, ?_⟩, hzero⟩
      rintro other ⟨hother, hsame⟩
      exact List.inj_on_of_nodup_map h.nodup hother hnode hsame
    · refine .inr ⟨?_, by omega⟩
      rintro node hnode rfl
      exact hnot (List.mem_map_of_mem hnode)

theorem World.InOrder.ledger {roll : List Node} {w : World} (h : w.InOrder roll) : Ledger w := by
  have hbooks := h.books.perm h.enrolled.values
  exact ⟨hbooks.processes.accountedFor, hbooks.clients.accountedFor, hbooks.served,
    hbooks.closedFirst⟩

/-- **The ledger.** Nothing is lost, shared, or given up twice, as long as no call is under way. -/
theorem ledger_of_reached {network : Network} {w : World} (h : Reached network w) : Ledger w := by
  obtain ⟨roll, hroll⟩ := h.inOrder
  exact hroll.ledger

/-- A node is removed whose process does not stop, and somebody waits for health meanwhile. -/
def unstoppableRemoval : List Move :=
  [.call (.remove "a"), .wait 0, .handOver fun _ => ⟨none, .ok false⟩, .reply (willing 0),
    .reply fun
      | .stop _ => .error ⟨"busy", []⟩
      | request => willing 0 request]

theorem ledger_of_unstoppableRemoval :
    ∃ (network : Network) (w : World) (m : Machine),
      World.run willingHost (Network.create soloConfig).run .blank = (.ok network, w) ∧
      (Machine.start network 500 0 w).run unstoppableRemoval = some m ∧ Reached network m.world ∧
      Ledger m.world := by
  have hends :
      (match World.run willingHost (Network.create soloConfig).run .blank with
        | (.ok network, w) =>
          ((Machine.start network 500 0 w).run unstoppableRemoval).any (·.holder.isNone)
        | (.error _, _) => false) = true := by
    decide +kernel
  split at hends
  next network w hcreate =>
    obtain ⟨m, hrun, hidle⟩ := (Option.any_eq_true _ _).mp hends
    have hidle := Option.isNone_iff_eq_none.mp hidle
    have hreached := Reached.mk hcreate hrun hidle
    exact ⟨network, w, m, hcreate, hrun, hreached, ledger_of_reached hreached⟩
  next => cases hends

end Localnet
