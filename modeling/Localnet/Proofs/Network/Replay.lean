import Localnet.Proofs.Network.Deeds

/-!
# Calls among others as calls in turn

While a call has the registry, the host may take its time with every answer. Whatever happens
meanwhile, a host that gives the same answers brings the call to the same end when the call is made by
itself, in the world that it found; and so it brings all calls to the same ends when they are made one
after the other.
-/

namespace Localnet

/-- A host answered every event of a history since an earlier one. -/
def Explains (oracle : World.Oracle) (earlier history : List Event) : Prop :=
  ∀ (w : World) (request : HostRequest) (reply : request.Reply), earlier <:+ w.history →
    ⟨request, reply⟩ :: w.history <:+ history → reply = w.grant request (oracle w.history request)

section

variable {oracle : World.Oracle} {earlier history : List Event} {w : World}

theorem Explains.of_suffix {history' : List Event} (h : Explains oracle earlier history')
    (hsuffix : history <:+ history') : Explains oracle earlier history :=
  fun w request reply hearlier hevent => h w request reply hearlier (hevent.trans hsuffix)

theorem World.grant_eq_of_history {w w' : World} (h : w'.history = w.history) (request : HostRequest)
    (answer : request.Answer) : w'.grant request answer = w.grant request answer := by
  have hhandle : w'.nextHandle = w.nextHandle := congrArg List.length h
  cases request <;> simp only [grant, hhandle]

/-- Whatever is answered, there is a host that would have answered so. -/
theorem exists_explains_record (h : ∃ oracle, Explains oracle earlier w.history) (request : HostRequest)
    (answer : (request : HostRequest) → request.Answer) :
    ∃ oracle, Explains oracle earlier (w.record request (w.grant request (answer request))).history := by
  obtain ⟨oracle, h⟩ := h
  refine ⟨fun history request =>
    if history.length = w.history.length then answer request else oracle history request, ?_⟩
  intro w' request' reply hearlier hevent
  rcases List.suffix_cons_iff.mp hevent with heq | hsuffix
  · obtain ⟨hhead, htail⟩ := List.cons.inj heq
    cases hhead
    dsimp only
    rw [htail, if_pos rfl]
    exact (World.grant_eq_of_history htail request _).symm
  · have hlt : w'.history.length < w.history.length := hsuffix.length_le
    dsimp only
    rw [if_neg (Nat.ne_of_lt hlt)]
    exact h w' request' reply hearlier hsuffix

theorem World.run_settle {α : Type} (oracle : World.Oracle) (task : Task α) (w : World) :
    World.run oracle (w.settle task).1 (w.settle task).2 = World.run oracle task w := by
  induction task generalizing w with
  | done a => rfl
  | ask request next ih =>
      cases request with
      | registry => exact ih _ w
      | setRegistry r => exact ih _ { w with registry := r }
      | host request => rfl

end

/-- A thread that was given the registry, in the network as it was then. -/
structure Look where
  thread : Nat
  network : Machine

/-- Whether it is a call that has the look, and not a wait. -/
def Look.isCall (look : Look) : Bool :=
  match look.network.thread? look.thread with
  | some (.calling _) => true
  | some (.waiting _) | some (.ended _) | none => false

/-- The nodes that are seen. -/
def Look.nodes (look : Look) : List Node := look.network.world.registry.nodes.values

/-- A call that was given the registry, what came of it, and the world that it left. -/
structure Served where
  look : Look
  call : Call
  result : Except NetworkError Answer
  after : World

section

variable {network : Network} {oracle : World.Oracle} {w w' w₁ : World} {served rest : List Served}
  {x : Served} {look : Look} {call : Call} {task : Task (Except NetworkError Answer)}
  {result : Except NetworkError Answer}

/-- Made one after the other, calls come to what came of them. -/
def Replays (network : Network) (oracle : World.Oracle) (w : World) (served : List Served)
    (w' : World) : Prop :=
  World.run oracle (network.callAll (served.map (·.call))) w = (served.map (·.result), w')

theorem replays_cons_iff : Replays network oracle w (x :: rest) w' ↔
    ∃ w₁, network.perform oracle x.call w = (x.result, w₁) ∧ Replays network oracle w₁ rest w' := by
  rw [Replays, List.map_cons, run_callAll_cons_iff, List.map_cons]
  constructor
  · rintro ⟨result, w₁, others, hcall, hrest, heq⟩
    obtain ⟨rfl, rfl⟩ := List.cons.inj heq
    exact ⟨w₁, hcall, hrest⟩
  · rintro ⟨w₁, hcall, hrest⟩
    exact ⟨_, w₁, _, hcall, hrest, rfl⟩

/-- Each call found the world that the one before it left. -/
def Linked : World → List Served → World → Prop
  | w, [], w' => w' = w
  | w, x :: rest, w' => x.look.network.world = w ∧ Linked x.after rest w'

theorem Linked.concat (h : Linked w served x.look.network.world) : Linked w (served ++ [x]) x.after := by
  induction served generalizing w with
  | nil => exact ⟨h, rfl⟩
  | cons first rest ih => exact ⟨h.1, ih h.2⟩

/-- What calls come to by themselves, each in the world that the one before it left, they come to one
after the other. -/
theorem Linked.replays (h : Linked w served w')
    (hown : ∀ x ∈ served, network.perform oracle x.call x.look.network.world = (x.result, x.after)) :
    Replays network oracle w served w' := by
  induction served generalizing w with
  | nil =>
      obtain rfl : w' = w := h
      rfl
  | cons first rest ih =>
      rw [List.forall_mem_cons] at hown
      obtain ⟨rfl, hrest⟩ := h
      exact replays_cons_iff.mpr ⟨first.after, hown.1, ih hrest hown.2⟩

/-- The calls that were served lead from one world to another, whatever host explains the events. -/
structure Serially (network : Network) (w : World) (served : List Served) (w' : World) : Prop where
  since : w.history <:+ w'.history
  explained : ∃ oracle, Explains oracle w.history w'.history
  /-- Each call came to what it comes to by itself in the world that it found. -/
  own : ∀ oracle, Explains oracle w.history w'.history → ∀ x ∈ served,
    network.perform oracle x.call x.look.network.world = (x.result, x.after)
  linked : Linked w served w'

/-- The same up to a call that has the registry: what is left of it is a task. -/
structure Midway (network : Network) (w : World) (served : List Served) (look : Look) (call : Call)
    (task : Task (Except NetworkError Answer)) (w' : World) : Prop where
  since : w.history <:+ w'.history
  explained : ∃ oracle, Explains oracle w.history w'.history
  own : ∀ oracle, Explains oracle w.history w'.history → ∀ x ∈ served,
    network.perform oracle x.call x.look.network.world = (x.result, x.after)
  linked : Linked w served look.network.world
  remains : ∀ oracle, Explains oracle w.history w'.history →
    network.perform oracle call look.network.world = World.run oracle task w'

theorem serially_start (network : Network) (w : World) : Serially network w [] w where
  since := List.suffix_rfl
  explained := by
    refine ⟨willingHost, fun w' request reply hearlier hevent => ?_⟩
    have hle : w'.history.length + 1 ≤ w'.history.length := (hevent.trans hearlier).length_le
    exact absurd hle (Nat.not_succ_le_self _)
  own _ _ x hx := absurd hx List.not_mem_nil
  linked := rfl

theorem Serially.begins (h : Serially network w served look.network.world) (call : Call) :
    Midway network w served look call (call.operation network).run look.network.world where
  since := h.since
  explained := h.explained
  own := h.own
  linked := h.linked
  remains _ _ := rfl

theorem Midway.settle (h : Midway network w served look call task w') :
    Midway network w served look call (w'.settle task).1 (w'.settle task).2 where
  since := h.since
  explained := h.explained
  own := h.own
  linked := h.linked
  remains oracle hexplains := (h.remains oracle hexplains).trans (World.run_settle oracle task w').symm

theorem Midway.answered {request : HostRequest}
    {next : request.Reply → Task (Except NetworkError Answer)}
    (h : Midway network w served look call (Program.ask (Request.host request) next) w')
    (answer : (request : HostRequest) → request.Answer) :
    Midway network w served look call (next (w'.grant request (answer request)))
      (w'.record request (w'.grant request (answer request))) := by
  have hsuffix : w'.history <:+ (w'.record request (w'.grant request (answer request))).history :=
    List.suffix_cons _ _
  refine ⟨h.since.trans hsuffix, exists_explains_record h.explained request answer,
    fun oracle hexplains => h.own oracle (hexplains.of_suffix hsuffix), h.linked,
    fun oracle hexplains => ?_⟩
  -- the host that explains the new event gives the answer that was given
  have hreply := hexplains w' request _ h.since List.suffix_rfl
  rw [h.remains oracle (hexplains.of_suffix hsuffix), World.run, ← hreply]

theorem Midway.ends (h : Midway network w served look call (.done result) w') :
    Serially network w (served ++ [⟨look, call, result, w'⟩]) w' where
  since := h.since
  explained := h.explained
  own oracle hexplains := by
    rw [List.forall_mem_append, List.forall_mem_singleton]
    exact ⟨h.own oracle hexplains, h.remains oracle hexplains⟩
  linked := h.linked.concat

end

end Localnet
