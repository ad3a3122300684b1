import Localnet.Proofs.Network.Alike

/-!
# The same answers

A supply has the answers of each part of a host, in their order. Two tasks for one network at two places
go alongside each other if, with the answers of one supply, they leave worlds alike that were. The
set-up of a node goes alongside itself.
-/

namespace Localnet

open List (Forall₂)

/-- The answers that the parts of a host give, those of each part in their order. -/
structure Supply where
  identity : Nat → Except Failure StakingIdentity
  unusedPort : Nat → Option Port
  makeDir : Nat → Except SystemError Unit
  writeFile : Nat → Except SystemError Unit
  launch : Nat → Except Failure Unit
  start : Nat → Except Failure Unit
  stop : Nat → Except Failure Unit
  connect : Nat → Except Failure Unit

namespace Supply

/-- The answer to a request after `n` others of its kind. -/
def answer (supply : Supply) (root : String) (n : Nat) : (request : HostRequest) → request.Answer
  | .identity => supply.identity n
  | .unusedPort => supply.unusedPort n
  | .makeRoot => .ok root
  | .makeDir _ => supply.makeDir n
  | .writeFile _ _ => supply.writeFile n
  | .launch _ _ => supply.launch n
  | .start _ => supply.start n
  | .stop _ => supply.stop n
  | .connect _ _ _ _ => supply.connect n
  | .close _ => ()

/-- A host that answers from a supply, and makes root directories at one place. -/
def host (supply : Supply) (root : String) : World.Oracle := fun history request =>
  supply.answer root (history.countP (·.request.ctorIdx = request.ctorIdx)) request

def reply (supply : Supply) (root : String) (w : World) (request : HostRequest) : request.Reply :=
  w.grant request (supply.host root w.history request)

end Supply

variable {α β γ δ ε ε' ι ι' : Type}

/-- Both failed, or both have a result, and the results are related. -/
def BothOk (R : α → β → Prop) : Except ε α → Except ε' β → Prop
  | .ok a, .ok b => R a b
  | .error _, .error _ => True
  | .ok _, .error _ | .error _, .ok _ => False

theorem BothOk.of_eq {r r' : Except ε α} (h : r = r') : BothOk (· = ·) r r' := by
  subst h
  cases r with
  | ok a => exact rfl
  | error e => exact trivial

/-- Tasks with related results, which leave worlds alike that were. -/
def Alongside (supply : Supply) (network network' : Network) (R : α → β → Prop) (task : Task α)
    (task' : Task β) : Prop :=
  ∀ w w' : World, w.Alike network network' w' →
    R (World.run (supply.host network.root) task w).1
      (World.run (supply.host network'.root) task' w').1 ∧
    (World.run (supply.host network.root) task w).2.Alike network network'
      (World.run (supply.host network'.root) task' w').2

namespace Alongside

variable {supply : Supply} {network network' : Network}

theorem pure {R : α → β → Prop} {a : α} {b : β} (h : R a b) :
    Alongside supply network network' R (Pure.pure a) (Pure.pure b) :=
  fun _ _ hw => ⟨h, hw⟩

theorem mono {R S : α → β → Prop} {task : Task α} {task' : Task β}
    (h : Alongside supply network network' R task task') (hR : ∀ a b, R a b → S a b) :
    Alongside supply network network' S task task' :=
  fun w w' hw => ⟨hR _ _ (h w w' hw).1, (h w w' hw).2⟩

theorem bind {R : α → β → Prop} {S : γ → δ → Prop} {task : Task α} {task' : Task β}
    {f : α → Task γ} {f' : β → Task δ} (h : Alongside supply network network' R task task')
    (hf : ∀ a b, R a b → Alongside supply network network' S (f a) (f' b)) :
    Alongside supply network network' S (task >>= f) (task' >>= f') := by
  intro w w' hw
  obtain ⟨hresult, hworld⟩ := h w w' hw
  rw [World.run_bind, World.run_bind]
  exact hf _ _ hresult _ _ hworld

theorem registry :
    Alongside supply network network' (Registry.Alike network network') Task.registry Task.registry :=
  fun _ _ hw => ⟨hw.registry, hw⟩

theorem modifyRegistry {f f' : Registry → Registry}
    (h : ∀ r r', r.Alike network network' r' → (f r).Alike network network' (f' r')) :
    Alongside supply network network' (fun _ _ => True) (Task.modifyRegistry f)
      (Task.modifyRegistry f') :=
  fun _ _ hw => ⟨trivial, h _ _ hw.registry, hw.history⟩

/-- Requests go alongside each other if they are the same thing asked for, and answered. -/
theorem ask {request request' : HostRequest} {R : request.Reply → request'.Reply → Prop}
    (h : ∀ w w' : World, w.Alike network network' w' →
      R (supply.reply network.root w request) (supply.reply network'.root w' request') ∧
      Event.Alike network network' ⟨request, supply.reply network.root w request⟩
        ⟨request', supply.reply network'.root w' request'⟩) :
    Alongside supply network network' R (Task.ask request) (Task.ask request') :=
  fun w w' hw => ⟨(h w w' hw).1, hw.record (h w w' hw).2⟩

theorem ask_same {request : HostRequest} (h : request.isPathless) :
    Alongside supply network network' (· = ·) (Task.ask request) (Task.ask request) := by
  refine ask fun w w' hw => ?_
  have hcount := countP_ctorIdx_eq request.ctorIdx hw.history
  have hreply : supply.reply network.root w request = supply.reply network'.root w' request := by
    unfold Supply.reply Supply.host
    rw [hcount]
    cases request with
    | connect node address port timeout =>
        simp only [World.grant, hw.nextHandle_eq]
        rfl
    | makeRoot => cases h
    | makeDir path => cases h
    | writeFile path text => cases h
    | launch config args => cases h
    | _ => rfl
  exact ⟨hreply, hreply ▸ .same h⟩

/-! ### Tasks that may fail -/

theorem run_bind {R : α → β → Prop} {S : γ → δ → Prop} {task : ExceptT ε Task α}
    {task' : ExceptT ε' Task β} {f : α → ExceptT ε Task γ} {f' : β → ExceptT ε' Task δ}
    (h : Alongside supply network network' (BothOk R) task.run task'.run)
    (hf : ∀ a b, R a b → Alongside supply network network' (BothOk S) (f a).run (f' b).run) :
    Alongside supply network network' (BothOk S) (task >>= f).run (task' >>= f').run := by
  rw [ExceptT.run_bind, ExceptT.run_bind]
  refine h.bind fun r r' hr => ?_
  cases r with
  | ok a =>
      cases r' with
      | ok b => exact hf a b hr
      | error e => exact hr.elim
  | error e =>
      cases r' with
      | ok b => exact hr.elim
      | error e' => exact .pure trivial

theorem lift {R : α → β → Prop} {task : Task α} {task' : Task β}
    (h : Alongside supply network network' R task task') :
    Alongside supply network network' (BothOk R) (liftM task : ExceptT ε Task α).run
      (liftM task' : ExceptT ε' Task β).run := by
  change Alongside supply network network' (BothOk R) (Except.ok <$> task) (Except.ok <$> task')
  rw [← bind_pure_comp, ← bind_pure_comp]
  exact h.bind fun a b hR => .pure hR

theorem adapt {R : α → β → Prop} {f : ε → ι} {f' : ε' → ι'} {task : ExceptT ε Task α}
    {task' : ExceptT ε' Task β}
    (h : Alongside supply network network' (BothOk R) task.run task'.run) :
    Alongside supply network network' (BothOk R) (ExceptT.adapt f task).run
      (ExceptT.adapt f' task').run := by
  change Alongside supply network network' (BothOk R) (Except.mapError f <$> task.run)
    (Except.mapError f' <$> task'.run)
  rw [← bind_pure_comp, ← bind_pure_comp]
  refine h.bind fun r r' hr => .pure ?_
  cases r <;> cases r' <;> exact hr

/-! ### The set-up of a node -/

theorem pickPort (taken : Port → Bool) (attempts : Nat) :
    Alongside supply network network' (BothOk (· = ·)) (Network.pickPort taken attempts).run
      (Network.pickPort taken attempts).run := by
  induction attempts with
  | zero => exact .pure trivial
  | succ attempts ih =>
      rw [Network.pickPort]
      refine run_bind (lift (ask_same rfl)) ?_
      rintro port _ rfl
      cases port with
      | none => exact ih
      | some port =>
          by_cases htaken : taken port
          · simpa [htaken] using ih
          · simpa [htaken] using Alongside.pure (BothOk.of_eq rfl)

theorem choosePort (declared : Option Port) (taken : Port → Bool) :
    Alongside supply network network' (BothOk (· = ·)) (Network.choosePort declared taken).run
      (Network.choosePort declared taken).run := by
  cases declared with
  | some port => exact .pure rfl
  | none => exact pickPort taken _

theorem portsOf (settings : NodeSettings) :
    Alongside supply network network' (BothOk (· = ·)) (Network.portsOf settings).run
      (Network.portsOf settings).run := by
  rw [Network.portsOf_eq]
  refine run_bind (lift registry) fun r r' hr => ?_
  rw [hr.ports]
  refine run_bind (choosePort _ _) ?_
  rintro httpPort _ rfl
  refine run_bind (choosePort _ _) ?_
  rintro stakingPort _ rfl
  exact .pure rfl

theorem identityOf (valid : ValidatedNode) :
    Alongside supply network network' (BothOk (· = ·)) (Network.identityOf valid).run
      (Network.identityOf valid).run := by
  unfold Network.identityOf
  split
  · exact .pure rfl
  · exact (ask_same rfl).mono fun _ _ => BothOk.of_eq

theorem makeDirs (plan : Plan) {paths paths' : List String}
    (h : Forall₂ (fun path path' => (path, path') ∈ (plan.dirsIn network).zip (plan.dirsIn network'))
      paths paths') :
    Alongside supply network network' (BothOk (· = ·)) (Network.makeDirs paths).run
      (Network.makeDirs paths').run := by
  induction h with
  | nil => exact .pure rfl
  | @cons path path' rest rest' hpath hrest ih =>
      refine run_bind (adapt (Alongside.mono (ask fun w w' hw => ?_) fun _ _ => BothOk.of_eq))
        fun _ _ _ => ih
      have hreply : supply.reply network.root w (.makeDir path) =
          supply.reply network'.root w' (.makeDir path') :=
        congrArg supply.makeDir (countP_ctorIdx_eq _ hw.history)
      exact ⟨hreply, hreply ▸ .makeDir hpath⟩

theorem writeFiles (plan : Plan) {files files' : List (String × String)}
    (h : Forall₂ (fun file file' => (file, file') ∈ (plan.filesIn network).zip (plan.filesIn network'))
      files files') :
    Alongside supply network network' (BothOk (· = ·)) (Network.writeFiles files).run
      (Network.writeFiles files').run := by
  induction h with
  | nil => exact .pure rfl
  | @cons file file' rest rest' hfile hrest ih =>
      refine run_bind (adapt (Alongside.mono (ask fun w w' hw => ?_) fun _ _ => BothOk.of_eq))
        fun _ _ _ => ih
      have hreply : supply.reply network.root w (.writeFile file.1 file.2) =
          supply.reply network'.root w' (.writeFile file'.1 file'.2) :=
        congrArg supply.writeFile (countP_ctorIdx_eq _ hw.history)
      exact ⟨hreply, hreply ▸ .writeFile hfile⟩

theorem launch (plan : Plan) (bootstrap : List Beacon) :
    Alongside supply network network' (BothOk (· = ·))
      (Task.ask (.launch (plan.configIn network) (plan.argumentsIn network bootstrap)))
      (Task.ask (.launch (plan.configIn network') (plan.argumentsIn network' bootstrap))) := by
  refine Alongside.mono (ask fun w w' hw => ?_) fun _ _ => BothOk.of_eq
  have hanswer : supply.host network.root w.history
      (.launch (plan.configIn network) (plan.argumentsIn network bootstrap)) =
      supply.host network'.root w'.history
        (.launch (plan.configIn network') (plan.argumentsIn network' bootstrap)) :=
    congrArg supply.launch (countP_ctorIdx_eq _ hw.history)
  have hreply : supply.reply network.root w
      (.launch (plan.configIn network) (plan.argumentsIn network bootstrap)) =
      supply.reply network'.root w'
        (.launch (plan.configIn network') (plan.argumentsIn network' bootstrap)) := by
    simp only [Supply.reply, World.grant, hanswer, hw.nextHandle_eq]
    rfl
  exact ⟨hreply, hreply ▸ .launch⟩

theorem connectTo (node : String) (process : Process) (port : Port) :
    Alongside supply network network' (BothOk (· = ·)) (Network.connectTo node process port).run
      (Network.connectTo node process port).run := by
  unfold Network.connectTo
  refine run_bind (lift (ask_same rfl)) ?_
  rintro reply _ rfl
  cases reply with
  | ok client => exact .pure rfl
  | error failure => exact run_bind (lift (ask_same rfl)) fun _ _ _ => .pure trivial

theorem forall₂_mem_zip {l : List α} {l' : List β} (h : l.length = l'.length) :
    Forall₂ (fun a b => (a, b) ∈ l.zip l') l l' :=
  List.forall₂_iff_zip.mpr ⟨h, id⟩

theorem length_filesIn (hmoved : network.Moved network') (plan : Plan) :
    (plan.filesIn network).length = (plan.filesIn network').length := by
  simp only [Plan.filesIn, NodeFiles.contents, NodeFiles.ofDir, Plan.configIn_eq hmoved]
  cases (plan.configIn network).configFile? <;> rfl

/-- A node is set up at two places. -/
theorem setUp (hmoved : network.Moved network') (config : NodeConfig) (name : String)
    (valid : ValidatedNode) :
    Alongside supply network network' (BothOk (Node.Alike network network'))
      (network.setUp config name valid).run (network'.setUp config name valid).run := by
  unfold Network.setUp
  refine run_bind (identityOf valid) ?_
  rintro identity _ rfl
  refine run_bind (portsOf valid.settings) ?_
  rintro ⟨httpPort, stakingPort⟩ _ rfl
  let plan : Plan := ⟨config, name, valid.settings, identity, httpPort, stakingPort⟩
  refine run_bind (makeDirs plan (forall₂_mem_zip rfl)) fun _ _ _ => ?_
  refine run_bind (writeFiles plan (forall₂_mem_zip (length_filesIn hmoved plan))) fun _ _ _ => ?_
  refine run_bind (lift registry) fun r r' hr => ?_
  rw [hr.beacons]
  refine run_bind (launch plan _) ?_
  rintro process _ rfl
  refine run_bind ((ask_same rfl).mono fun _ _ => BothOk.of_eq) fun _ _ _ => ?_
  refine run_bind (connectTo name process httpPort) ?_
  rintro client _ rfl
  exact .pure ⟨plan, client, process, rfl, rfl⟩

theorem startNode (hmoved : network.Moved network') (config : NodeConfig) (name : String)
    (valid : ValidatedNode) :
    Alongside supply network network' (BothOk (Node.Alike network network'))
      (network.startNode config name valid).run (network'.startNode config name valid).run := by
  unfold Network.startNode
  refine run_bind (adapt (setUp hmoved config name valid)) fun node node' hnode => ?_
  refine run_bind (lift (modifyRegistry fun r r' hr => ?_)) fun _ _ _ => .pure hnode
  exact hr.register hmoved hnode

theorem startNodes (hmoved : network.Moved network')
    (nodes : List (NodeConfig × String × ValidatedNode)) :
    Alongside supply network network' (BothOk (· = ·)) (network.startNodes nodes).run
      (network'.startNodes nodes).run := by
  induction nodes with
  | nil => exact .pure rfl
  | cons node rest ih => exact run_bind (startNode hmoved _ _ _) fun _ _ _ => ih

end Alongside

end Localnet
