import Localnet.Network.World
import Localnet.Proofs.Network.SetUp
import Localnet.Proofs.Table
import Mathlib.Data.List.Forall2

/-!
# One network at two places

Two networks that differ in their root directory only are compared: nodes, events and worlds of the one
are alike to those of the other if they come of the same plans. If the directory is the same too, being
alike is being equal.
-/

namespace Localnet

open List (Forall₂)

/-- Networks that differ in their root directory only. -/
def Network.Moved (network network' : Network) : Prop :=
  network' = { network with root := network'.root }

/-- Whether a request tells nothing of where the files of a network are. -/
def HostRequest.isPathless : HostRequest → Bool
  | .identity | .unusedPort | .start _ | .stop _ | .connect _ _ _ _ | .close _ => true
  | .makeRoot | .makeDir _ | .writeFile _ _ | .launch _ _ => false

/-- The same thing asked for and answered, for two networks. -/
inductive Event.Alike (network network' : Network) : Event → Event → Prop
  | same {request : HostRequest} {reply : request.Reply} : request.isPathless →
      Event.Alike network network' ⟨request, reply⟩ ⟨request, reply⟩
  | makeRoot :
      Event.Alike network network' ⟨.makeRoot, .ok network.root⟩ ⟨.makeRoot, .ok network'.root⟩
  | makeDir {plan : Plan} {path path' : String} {reply : Except SystemError Unit} :
      (path, path') ∈ (plan.dirsIn network).zip (plan.dirsIn network') →
      Event.Alike network network' ⟨.makeDir path, reply⟩ ⟨.makeDir path', reply⟩
  | writeFile {plan : Plan} {file file' : String × String} {reply : Except SystemError Unit} :
      (file, file') ∈ (plan.filesIn network).zip (plan.filesIn network') →
      Event.Alike network network' ⟨.writeFile file.1 file.2, reply⟩
        ⟨.writeFile file'.1 file'.2, reply⟩
  | launch {plan : Plan} {bootstrap : List Beacon} {reply : Except Failure Process} :
      Event.Alike network network'
        ⟨.launch (plan.configIn network) (plan.argumentsIn network bootstrap), reply⟩
        ⟨.launch (plan.configIn network') (plan.argumentsIn network' bootstrap), reply⟩

/-- Nodes that come of one plan, with the same handles. -/
def Node.Alike (network network' : Network) (node node' : Node) : Prop :=
  ∃ (plan : Plan) (client : Client) (process : Process),
    node = plan.nodeIn network client process ∧ node' = plan.nodeIn network' client process

/-- Entries under one name, with related values. -/
def Members.Related {α β : Type} (R : α → β → Prop) (entry : String × α) (entry' : String × β) : Prop :=
  entry.1 = entry'.1 ∧ R entry.2 entry'.2

/-- Registries with nodes that are alike, under the same names. The number of the next generated name
has no part in it. -/
structure Registry.Alike (network network' : Network) (r r' : Registry) : Prop where
  nodes : Forall₂ (Members.Related (Node.Alike network network')) r.nodes.entries r'.nodes.entries
  beacons : r.beacons = r'.beacons
  ports : r.ports = r'.ports
  stopped : r.stopped = r'.stopped

structure World.Alike (network network' : Network) (w w' : World) : Prop where
  registry : w.registry.Alike network network' w'.registry
  history : Forall₂ (Event.Alike network network') w.history w'.history

section

variable {network network' : Network}

theorem Event.Alike.ctorIdx_eq {e e' : Event} (h : e.Alike network network' e') :
    e.request.ctorIdx = e'.request.ctorIdx := by
  cases h <;> rfl

theorem World.Alike.nextHandle_eq {w w' : World} (h : w.Alike network network' w') :
    w.nextHandle = w'.nextHandle :=
  h.history.length_eq

/-- The same number of requests of a kind came before. -/
theorem countP_ctorIdx_eq {history history' : List Event} (kind : Nat)
    (h : Forall₂ (Event.Alike network network') history history') :
    history.countP (·.request.ctorIdx = kind) = history'.countP (·.request.ctorIdx = kind) := by
  induction h with
  | nil => rfl
  | cons hevent _ ih => rw [List.countP_cons, List.countP_cons, ih, hevent.ctorIdx_eq]

theorem World.Alike.record {w w' : World} (h : w.Alike network network' w')
    {request request' : HostRequest} {reply : request.Reply} {reply' : request'.Reply}
    (hevent : Event.Alike network network' ⟨request, reply⟩ ⟨request', reply'⟩) :
    (w.record request reply).Alike network network' (w'.record request' reply') where
  registry := h.registry
  history := .cons hevent h.history

/-! ### Registration -/

theorem Members.insert_forall₂ {α β : Type} {R : α → β → Prop} {name : String} {a : α} {b : β}
    {entries : List (String × α)} {entries' : List (String × β)} (hvalue : R a b)
    (h : Forall₂ (Related R) entries entries') :
    Forall₂ (Related R) (insert name a entries) (insert name b entries') := by
  induction h with
  | nil => exact .cons ⟨rfl, hvalue⟩ .nil
  | @cons entry entry' rest rest' hentry hrest ih =>
      obtain ⟨key, old⟩ := entry
      obtain ⟨key', old'⟩ := entry'
      obtain ⟨hkey, hold⟩ := hentry
      obtain rfl : key = key' := hkey
      rw [insert, insert]
      by_cases hlt : name < key
      · rw [if_pos hlt, if_pos hlt]
        exact .cons ⟨rfl, hvalue⟩ (.cons ⟨rfl, hold⟩ hrest)
      · rw [if_neg hlt, if_neg hlt]
        by_cases heq : key = name
        · rw [if_pos heq, if_pos heq]
          exact .cons ⟨rfl, hvalue⟩ hrest
        · rw [if_neg heq, if_neg heq]
          exact .cons ⟨rfl, hold⟩ ih

theorem Plan.configIn_eq (h : network.Moved network') (plan : Plan) :
    plan.configIn network' = plan.configIn network := by
  rw [h]
  rfl

theorem Registry.Alike.register (hmoved : network.Moved network') {r r' : Registry}
    (h : r.Alike network network' r') {node node' : Node}
    (hnode : node.Alike network network' node') :
    (r.register node).Alike network network' (r'.register node') := by
  have hnodes := hnode
  obtain ⟨plan, client, process, rfl, rfl⟩ := hnode
  refine ⟨Members.insert_forall₂ hnodes h.nodes, ?_, ?_, h.stopped⟩
  · simp only [Registry.register, h.beacons, Registry.beaconOf?, Node.isBeacon, Plan.nodeIn,
      Plan.configIn_eq hmoved]
    rfl
  · simp only [Registry.register, h.ports]
    rfl

/-! ### The same root -/

theorem Event.Alike.eq {e e' : Event} (h : e.Alike network network e') : e = e' := by
  have hzip : ∀ {α : Type} {a b : α} {l : List α}, (a, b) ∈ l.zip l → a = b := by
    intro α a b l hmem
    obtain ⟨i, hi, heq⟩ := List.mem_iff_getElem.mp hmem
    rw [List.getElem_zip] at heq
    cases heq
    rfl
  cases h with
  | same _ => rfl
  | makeRoot => rfl
  | makeDir hmem => rw [hzip hmem]
  | writeFile hmem => rw [hzip hmem]
  | launch => rfl

theorem forall₂_eq {α : Type} {R : α → α → Prop} {l l' : List α} (h : Forall₂ R l l')
    (heq : ∀ a b, R a b → a = b) : l = l' := by
  have := h.imp heq
  rwa [List.forall₂_eq_eq_eq] at this

theorem Registry.Alike.eq {r r' : Registry} (h : r.Alike network network r')
    (hnumber : r.nextNumber = r'.nextNumber) : r = r' := by
  have hnodes : r.nodes = r'.nodes := by
    refine Table.ext (forall₂_eq h.nodes ?_)
    rintro ⟨name, node⟩ ⟨name', node'⟩ ⟨hname, plan, client, process, hnode, hnode'⟩
    exact Prod.ext hname (hnode.trans hnode'.symm)
  have hbeacons := h.beacons
  have hports := h.ports
  have hstopped := h.stopped
  cases r
  cases r'
  simp only [Registry.mk.injEq]
  exact ⟨hnodes, hbeacons, hports, hnumber, hstopped⟩

theorem World.Alike.eq {w w' : World} (h : w.Alike network network w')
    (hnumber : w.registry.nextNumber = w'.registry.nextNumber) : w = w' := by
  have hregistry := h.registry.eq hnumber
  have hhistory := forall₂_eq h.history fun _ _ => Event.Alike.eq
  cases w
  cases w'
  simp only [World.mk.injEq]
  exact ⟨hregistry, hhistory⟩

end

end Localnet
