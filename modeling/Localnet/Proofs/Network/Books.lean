import Localnet.Network.World
import Mathlib.Data.List.Nodup
import Mathlib.Data.List.Perm.Basic

/-!
# The books of a network's handles

Processes and clients are handles of two kinds: an event opens a handle, another one closes it. The
books of a history are in order for the nodes that hold handles if every handle that was opened is held
by one node and was never closed, or is held by none and was closed once.
-/

namespace Localnet

/-- A kind of handle: which one an event opens or closes, if any. -/
structure HandleKind (H : Type) where
  opened : Event → Option H
  closed : Event → Option H
  number : H → Nat

/-- A process is open once it has started, and closed by the request to stop, whatever comes of it. -/
def processes : HandleKind Process where
  opened
    | ⟨.start process, .ok ()⟩ => some process
    | _ => none
  closed
    | ⟨.stop process, _⟩ => some process
    | _ => none
  number := Process.number

/-- A client is open once it is handed out. -/
def clients : HandleKind Client where
  opened
    | ⟨.connect _ _ _ _, .ok client⟩ => some client
    | _ => none
  closed
    | ⟨.close client, _⟩ => some client
    | _ => none
  number := Client.number

section

variable {H : Type} [DecidableEq H]

/-- How often the events of a history are about a handle. -/
def timesOf (about : Event → Option H) (x : H) (history : List Event) : Nat :=
  history.countP (about · = some x)

@[simp] theorem timesOf_nil (about : Event → Option H) (x : H) : timesOf about x [] = 0 := rfl

theorem timesOf_cons (about : Event → Option H) (x : H) (e : Event) (history : List Event) :
    timesOf about x (e :: history) =
      timesOf about x history + if about e = some x then 1 else 0 := by
  simp [timesOf, List.countP_cons]

theorem timesOf_pos_of_mem {about : Event → Option H} {x : H} {e : Event} {history : List Event}
    (hmem : e ∈ history) (he : about e = some x) : 0 < timesOf about x history :=
  List.countP_pos_iff.mpr ⟨e, hmem, by simpa using he⟩

/-- The accounts of one kind of handle, when some are held. -/
structure HandleKind.Balanced (kind : HandleKind H) (held : List H) (history : List Event) :
    Prop where
  nodup : held.Nodup
  settled : ∀ x,
    (x ∈ held ∧ timesOf kind.opened x history = 1 ∧ timesOf kind.closed x history = 0) ∨
    (x ∉ held ∧ timesOf kind.opened x history = timesOf kind.closed x history ∧
      timesOf kind.opened x history ≤ 1)
  numbered : ∀ e ∈ history, ∀ x, kind.opened e = some x → kind.number x < history.length

namespace HandleKind.Balanced

variable {kind : HandleKind H} {held : List H} {history : List Event} {e : Event} {x : H}

theorem nil : kind.Balanced [] [] := by
  constructor <;> simp

theorem perm {held' : List H} (h : kind.Balanced held history) (hperm : held.Perm held') :
    kind.Balanced held' history where
  nodup := hperm.nodup_iff.mp h.nodup
  settled x := by simpa only [hperm.mem_iff] using h.settled x
  numbered := h.numbered

theorem timesOf_opened_eq_zero (h : kind.Balanced held history)
    (hx : history.length ≤ kind.number x) : timesOf kind.opened x history = 0 := by
  by_contra hne
  obtain ⟨e, hmem, he⟩ := List.countP_pos_iff.mp (Nat.pos_of_ne_zero hne)
  have hlt := h.numbered e hmem x (by simpa using he)
  omega

theorem number_lt (h : kind.Balanced held history) (hx : x ∈ held) :
    kind.number x < history.length := by
  by_contra hle
  have hzero := h.timesOf_opened_eq_zero (Nat.le_of_not_lt hle)
  rcases h.settled x with ⟨_, hone, _⟩ | ⟨hnot, _⟩
  · omega
  · exact hnot hx

theorem timesOf_closed_eq_zero (h : kind.Balanced held history)
    (hx : timesOf kind.opened x history = 0) : timesOf kind.closed x history = 0 := by
  rcases h.settled x with ⟨_, hone, _⟩ | ⟨_, heq, _⟩ <;> omega

/-- An event that neither opens nor closes a handle. -/
theorem skip (h : kind.Balanced held history) (hopened : kind.opened e = none)
    (hclosed : kind.closed e = none) : kind.Balanced held (e :: history) where
  nodup := h.nodup
  settled x := by simpa [timesOf_cons, hopened, hclosed] using h.settled x
  numbered e' he' x hx := by
    rcases List.mem_cons.mp he' with rfl | he'
    · simp [hopened] at hx
    · exact Nat.lt_succ_of_lt (h.numbered e' he' x hx)

/-- A handle that is opened for the first time is held from then on. -/
theorem opens (h : kind.Balanced held history) (hopened : kind.opened e = some x)
    (hclosed : kind.closed e = none) (hfresh : timesOf kind.opened x history = 0)
    (hnumber : kind.number x ≤ history.length) : kind.Balanced (x :: held) (e :: history) := by
  have hnot : x ∉ held := by
    intro hmem
    rcases h.settled x with ⟨_, hone, _⟩ | ⟨hnot, _⟩
    · omega
    · exact hnot hmem
  refine ⟨List.nodup_cons.mpr ⟨hnot, h.nodup⟩, fun y => ?_, ?_⟩
  · by_cases hy : x = y
    · subst hy
      rcases h.settled x with ⟨hmem, _⟩ | ⟨_, heq, _⟩
      · exact absurd hmem hnot
      · simp [timesOf_cons, hopened, hclosed, hfresh, ← heq]
    · simpa [timesOf_cons, hopened, hclosed, hy, Ne.symm hy] using h.settled y
  · intro e' he' y hy
    simp only [List.length_cons]
    rcases List.mem_cons.mp he' with rfl | he'
    · obtain rfl : x = y := by simpa [hopened] using hy
      omega
    · have := h.numbered e' he' y hy
      omega

/-- A handle that is closed is not held any more. -/
theorem closes (h : kind.Balanced (x :: held) history) (hopened : kind.opened e = none)
    (hclosed : kind.closed e = some x) : kind.Balanced held (e :: history) := by
  obtain ⟨hnot, hnodup⟩ := List.nodup_cons.mp h.nodup
  refine ⟨hnodup, fun y => ?_, ?_⟩
  · by_cases hy : x = y
    · subst hy
      rcases h.settled x with ⟨_, hone, hzero⟩ | ⟨habsent, _⟩
      · simp [timesOf_cons, hopened, hclosed, hone, hzero, hnot]
      · simp at habsent
    · simpa [timesOf_cons, hopened, hclosed, hy, Ne.symm hy] using h.settled y
  · intro e' he' y hy
    rcases List.mem_cons.mp he' with rfl | he'
    · simp [hopened] at hy
    · exact Nat.lt_succ_of_lt (h.numbered e' he' y hy)

end HandleKind.Balanced

end

/-! ### The client of a process -/

/-- The client was handed out when the process had just started: both are of one node. -/
def Serves (history : List Event) (client : Client) (process : Process) : Prop :=
  ∃ node address port timeout earlier,
    ⟨.connect node address port timeout, .ok client⟩ :: ⟨.start process, .ok ()⟩ :: earlier
      <:+ history

theorem Serves.cons {history : List Event} {client : Client} {process : Process}
    (h : Serves history client process) (e : Event) : Serves (e :: history) client process := by
  obtain ⟨node, address, port, timeout, earlier, hsuffix⟩ := h
  exact ⟨node, address, port, timeout, earlier, hsuffix.trans (List.suffix_cons e history)⟩

theorem Serves.of_cons {history : List Event} {e : Event} {client : Client} {process : Process}
    (h : Serves (e :: history) client process) (he : clients.opened e = none) :
    Serves history client process := by
  obtain ⟨node, address, port, timeout, earlier, hsuffix⟩ := h
  rcases List.suffix_cons_iff.mp hsuffix with heq | hsuffix
  · obtain ⟨rfl, -⟩ := List.cons.inj heq
    cases he
  · exact ⟨node, address, port, timeout, earlier, hsuffix⟩

theorem stop_suffix_of_cons {history earlier : List Event} {e : Event} {process : Process}
    {reply : Except Failure Unit} (h : ⟨.stop process, reply⟩ :: earlier <:+ e :: history)
    (he : processes.closed e = none) : ⟨.stop process, reply⟩ :: earlier <:+ history := by
  rcases List.suffix_cons_iff.mp h with heq | hsuffix
  · obtain ⟨rfl, -⟩ := List.cons.inj heq
    cases he
  · exact hsuffix

theorem Serves.timesOf_pos {history : List Event} {client : Client} {process : Process}
    (h : Serves history client process) : 0 < timesOf processes.opened process history := by
  obtain ⟨node, address, port, timeout, earlier, hsuffix⟩ := h
  have hmem : ⟨.start process, .ok ()⟩ ∈ history := hsuffix.subset (by simp)
  exact timesOf_pos_of_mem hmem rfl

/-- What has a property at one place of a list at most is followed by one list only. -/
theorem eq_of_suffix_of_countP_le_one {α : Type} {p : α → Bool} {a b : α} {as bs l : List α}
    (hcount : l.countP p ≤ 1) (ha : a :: as <:+ l) (hb : b :: bs <:+ l) (hpa : p a) (hpb : p b) :
    a :: as = b :: bs := by
  induction l with
  | nil => simp at ha
  | cons x rest ih =>
      have hrest : p x → rest.countP p = 0 := by
        intro hx
        rw [List.countP_cons_of_pos hx] at hcount
        omega
      have hpos : ∀ {y : α} {ys : List α}, y :: ys <:+ rest → p y → 0 < rest.countP p :=
        fun hsuffix hy => List.countP_pos_iff.mpr ⟨_, hsuffix.subset (by simp), hy⟩
      rcases List.suffix_cons_iff.mp ha with hahead | hatail <;>
        rcases List.suffix_cons_iff.mp hb with hbhead | hbtail
      · exact hahead.trans hbhead.symm
      · obtain ⟨rfl, -⟩ := List.cons.inj hahead
        have := hpos hbtail hpb
        have := hrest hpa
        omega
      · obtain ⟨rfl, -⟩ := List.cons.inj hbhead
        have := hpos hatail hpa
        have := hrest hpb
        omega
      · exact ih (Nat.le_trans (by simp [List.countP_cons]) hcount) hatail hbtail

theorem Serves.unique {history : List Event} {first second : Client} {process : Process}
    (hfirst : Serves history first process) (hsecond : Serves history second process)
    (hcount : timesOf processes.opened process history ≤ 1) : first = second := by
  obtain ⟨node, address, port, timeout, earlier, hsuffix⟩ := hfirst
  obtain ⟨node', address', port', timeout', earlier', hsuffix'⟩ := hsecond
  have hstart := eq_of_suffix_of_countP_le_one hcount ((List.suffix_cons _ _).trans hsuffix)
    ((List.suffix_cons _ _).trans hsuffix') (by simp [processes]) (by simp [processes])
  obtain ⟨-, rfl⟩ := List.cons.inj hstart
  have heq := (List.suffix_of_suffix_length_le hsuffix hsuffix' (by simp)).eq_of_length (by simp)
  cases heq
  rfl

/-! ### The books -/

/-- The books of a history when some nodes hold their handles. -/
structure Books (held : List Node) (history : List Event) : Prop where
  processes : processes.Balanced (held.map (·.process)) history
  clients : clients.Balanced (held.map (·.client)) history
  served : ∀ node ∈ held, Serves history node.client node.process
  closedFirst : ∀ client process, Serves history client process → ∀ reply earlier,
    ⟨.stop process, reply⟩ :: earlier <:+ history → ⟨.close client, ()⟩ ∈ earlier

namespace Books

variable {held : List Node} {history : List Event} {e : Event} {node : Node}

theorem nil : Books [] [] := by
  refine ⟨.nil, .nil, by simp, ?_⟩
  rintro client process - reply earlier hsuffix
  simp at hsuffix

theorem perm {held' : List Node} (h : Books held history) (hperm : held.Perm held') :
    Books held' history where
  processes := h.processes.perm (hperm.map _)
  clients := h.clients.perm (hperm.map _)
  served node hnode := h.served node (hperm.mem_iff.mpr hnode)
  closedFirst := h.closedFirst

theorem skip (h : Books held history) (hopened : Localnet.processes.opened e = none)
    (hclosed : Localnet.processes.closed e = none) (hopened' : Localnet.clients.opened e = none)
    (hclosed' : Localnet.clients.closed e = none) : Books held (e :: history) where
  processes := h.processes.skip hopened hclosed
  clients := h.clients.skip hopened' hclosed'
  served node hnode := (h.served node hnode).cons e
  closedFirst client process hserves reply earlier hsuffix :=
    h.closedFirst client process (hserves.of_cons hopened') reply earlier
      (stop_suffix_of_cons hsuffix hclosed)

/-- A node whose process was started, and whose client was handed out at once, holds both. -/
theorem takesIn {name address : String} {port : Port} {timeout : Nat} (h : Books held history)
    (node : Node)
    (hprocess : timesOf Localnet.processes.opened node.process history = 0)
    (hnumber : node.process.number ≤ history.length)
    (hclient : node.client.number = history.length + 1) :
    Books (node :: held)
      (⟨.connect name address port timeout, .ok node.client⟩ :: ⟨.start node.process, .ok ()⟩ ::
        history) := by
  have hclients := h.clients.skip (e := ⟨.start node.process, .ok ()⟩) rfl rfl
  refine ⟨(h.processes.opens rfl rfl hprocess hnumber).skip rfl rfl,
    hclients.opens rfl rfl (hclients.timesOf_opened_eq_zero ?_) ?_, ?_, ?_⟩
  · exact Nat.le_of_eq hclient.symm
  · exact Nat.le_of_eq hclient
  · intro other hother
    rcases List.mem_cons.mp hother with rfl | hother
    · exact ⟨name, address, port, timeout, history, List.suffix_rfl⟩
    · exact ((h.served other hother).cons _).cons _
  · intro client process hserves reply earlier hsuffix
    have hstop := stop_suffix_of_cons (stop_suffix_of_cons hsuffix rfl) rfl
    obtain ⟨_, _, _, _, before, hserves⟩ := hserves
    rcases List.suffix_cons_iff.mp hserves with heq | hserves
    · -- the process of the new node was never asked to stop
      obtain ⟨-, hrest⟩ := List.cons.inj heq
      cases hrest
      have hzero := h.processes.timesOf_closed_eq_zero hprocess
      have hmem : ⟨.stop node.process, reply⟩ ∈ history := hstop.subset (by simp)
      have hpos : 0 < timesOf Localnet.processes.closed node.process history :=
        timesOf_pos_of_mem hmem rfl
      omega
    · exact h.closedFirst client process (Serves.of_cons ⟨_, _, _, _, before, hserves⟩ rfl) reply
        earlier hstop

/-- A process that was started for a node without a client is asked to stop. -/
theorem givesUp {name address : String} {port : Port} {timeout : Nat} {process : Process}
    {e : Failure} {reply : Except Failure Unit} (h : Books held history)
    (hprocess : timesOf Localnet.processes.opened process history = 0)
    (hnumber : process.number ≤ history.length) :
    Books held
      (⟨.stop process, reply⟩ :: ⟨.connect name address port timeout, .error e⟩ ::
        ⟨.start process, .ok ()⟩ :: history) := by
  have hopen := (h.processes.opens (e := ⟨.start process, .ok ()⟩) rfl rfl hprocess hnumber).skip
    (e := ⟨.connect name address port timeout, .error e⟩) rfl rfl
  refine ⟨hopen.closes rfl rfl, ((h.clients.skip rfl rfl).skip rfl rfl).skip rfl rfl, ?_, ?_⟩
  · intro node hnode
    exact (((h.served node hnode).cons _).cons _).cons _
  · intro client other hserves reply' earlier hsuffix
    have hserves : Serves history client other :=
      ((hserves.of_cons rfl).of_cons rfl).of_cons rfl
    rcases List.suffix_cons_iff.mp hsuffix with heq | hsuffix
    · -- no client was ever handed out for the process
      cases heq
      have := hserves.timesOf_pos
      omega
    · have hstop := stop_suffix_of_cons (stop_suffix_of_cons hsuffix rfl) rfl
      exact h.closedFirst client other hserves reply' earlier hstop

/-- A node that is shut down holds its handles no more. -/
theorem shutDown {reply : Except Failure Unit} (h : Books (node :: held) history) :
    Books held (⟨.stop node.process, reply⟩ :: ⟨.close node.client, ()⟩ :: history) := by
  refine ⟨(h.processes.skip rfl rfl).closes rfl rfl, (h.clients.closes rfl rfl).skip rfl rfl, ?_, ?_⟩
  · intro other hother
    exact ((h.served other (List.mem_cons_of_mem node hother)).cons _).cons _
  · intro client process hserves reply' earlier hsuffix
    have hserves : Serves history client process := (hserves.of_cons rfl).of_cons rfl
    rcases List.suffix_cons_iff.mp hsuffix with heq | hsuffix
    · cases heq
      have hone : timesOf Localnet.processes.opened node.process history ≤ 1 := by
        rcases h.processes.settled node.process with ⟨_, hone, _⟩ | ⟨_, _, hle⟩ <;> omega
      have hclient := hserves.unique (h.served node List.mem_cons_self) hone
      simp [hclient]
    · exact h.closedFirst client process hserves reply' earlier (stop_suffix_of_cons hsuffix rfl)

end Books

end Localnet
