import Localnet.Proofs.FileTree
import Localnet.Proofs.Network.Arguments
import Localnet.Rehearsal.Host

/-!
# The files of the nodes

A host keeps files if it answers what is asked about them as a tree of files does. If the nodes have
separate names, then all that is written lies below the root directory of the network, and the files of
a registered node are as they were written when it was set up, whatever else is asked for.
-/

namespace Localnet

open FileTree (Place)

namespace FileTree

/-- The files after something was asked for. -/
def after (t : FileTree) (workDir : Place) : Event → FileTree
  | ⟨.makeRoot, .ok root⟩ => (t.makeDir workDir root).toOption.getD t
  | ⟨.makeDir path, _⟩ => (t.makeDirs workDir path).1
  | ⟨.writeFile path text, _⟩ => (t.write workDir path text).toOption.getD t
  | _ => t

/-- Whether the answer to what was asked for is the one that the files give. -/
def Answers (t : FileTree) (workDir : Place) : Event → Prop
  | ⟨.makeRoot, .ok root⟩ => (t.makeDir workDir root).isOk
  | ⟨.makeDir path, reply⟩ => reply = (t.makeDirs workDir path).2
  | ⟨.writeFile path text, reply⟩ => reply = (t.write workDir path text).map fun _ => ()
  | _ => True

/-- The files after all that was asked for. -/
def replay (t : FileTree) (workDir : Place) : List Event → FileTree
  | [] => t
  | e :: history => (t.replay workDir history).after workDir e

/-- Whether all was answered as the files answer it. -/
def AnswersAll (t : FileTree) (workDir : Place) : List Event → Prop
  | [] => True
  | e :: history => t.AnswersAll workDir history ∧ (t.replay workDir history).Answers workDir e

variable {t : FileTree} {workDir : Place} {history : List Event}

theorem after_of_isShutDown {request : HostRequest} (reply : request.Reply)
    (h : request.isShutDown) : t.after workDir ⟨request, reply⟩ = t := by
  cases request with
  | stop _ => rfl
  | close _ => rfl
  | _ => cases h

theorem write_eq_ok_of_answers {path text : String}
    (h : t.Answers workDir ⟨.writeFile path text, .ok ()⟩) :
    ∃ t', t.write workDir path text = .ok t' ∧ t.after workDir ⟨.writeFile path text, .ok ()⟩ = t' := by
  cases hwrite : t.write workDir path text with
  | error e =>
      simp [Answers, hwrite, Except.map] at h
  | ok t' => exact ⟨t', rfl, by simp [after, hwrite, Except.toOption]⟩

end FileTree

theorem read_of_written {root : String} {t : FileTree} {workDir : Place} {history : List Event}
    {files : List (String × String)}
    (hbelow : ∀ file ∈ files, ∃ names, Path.Below root file.1 names)
    (hdistinct : files.Pairwise fun file other => Path.components file.1 ≠ Path.components other.1)
    (hanswers : t.AnswersAll workDir
      (files.map (fun file => ⟨.writeFile file.1 file.2, .ok ()⟩) ++ history)) :
    ∀ file ∈ files, (t.replay workDir
      (files.map (fun file => ⟨.writeFile file.1 file.2, .ok ()⟩) ++ history)).read workDir file.1 =
        .ok file.2 := by
  induction files with
  | nil => exact nofun
  | cons latest rest ih =>
      obtain ⟨hrest, hlatest⟩ := hanswers
      obtain ⟨t', hwrite, hafter⟩ := FileTree.write_eq_ok_of_answers hlatest
      rw [List.pairwise_cons] at hdistinct
      have hread := ih (fun file hfile => hbelow file (List.mem_cons_of_mem _ hfile)) hdistinct.2 hrest
      change ∀ file ∈ latest :: rest, (FileTree.after _ workDir _).read workDir file.1 = .ok file.2
      rw [hafter]
      refine List.forall_mem_cons.mpr ⟨FileTree.read_of_write hwrite, fun file hfile => ?_⟩
      obtain ⟨names, hnames⟩ := hbelow file (List.mem_cons_of_mem _ hfile)
      obtain ⟨names', hnames'⟩ := hbelow latest List.mem_cons_self
      refine FileTree.read_write_of_ne hnames hnames' ?_ (hread file hfile) hwrite
      rintro rfl
      exact hdistinct.1 file hfile (hnames'.components.trans hnames.components.symm)

theorem Names.Separate.below {allowed : String → Prop} (h : Names.Separate allowed)
    {root name path : String} (hname : allowed name) (hpath : path ∈ filePaths (Path.join root name)) :
    ∃ file, Path.Below root path (Path.components name ++ [file]) := by
  have hrelative := h.relative hname
  have hdownward := h.downward hname
  have hfile : ∀ file : String, Path.isAbsolute file = false → Path.components file = [file] →
      ".." ≠ file → Path.Below root (Path.join (Path.join root name) file) (Path.components name ++ [file]) := by
    intro file hfile hcomponents hne
    refine ⟨?_, ?_, by simp, by simp [hdownward, hne]⟩
    · rw [Path.components_join hfile, Path.components_join hrelative, hcomponents, List.append_assoc]
    · rw [Path.isAbsolute_join hfile, Path.isAbsolute_join hrelative]
  simp only [filePaths, List.map_cons, List.map_nil, List.mem_cons, List.not_mem_nil, or_false] at hpath
  rcases hpath with rfl | rfl | rfl | rfl
  all_goals exact ⟨_, hfile _ (by decide) (by decide) (by decide)⟩

theorem pairwise_contents (dir genesis : String) (config : NodeConfig) :
    ((NodeFiles.ofDir dir config).contents genesis config).Pairwise
      fun file other => Path.components file.1 ≠ Path.components other.1 := by
  have hcomponents : ∀ file : String, Path.isAbsolute file = false → Path.components file = [file] →
      Path.components (Path.join dir file) = Path.components dir ++ [file] := by
    intro file hfile hcomponents
    rw [Path.components_join hfile, hcomponents]
  have hgenesis := hcomponents "genesis.json" (by decide) (by decide)
  have hkey := hcomponents "staking.key" (by decide) (by decide)
  have hcert := hcomponents "staking.crt" (by decide) (by decide)
  have hconfig := hcomponents "config.json" (by decide) (by decide)
  unfold NodeFiles.contents NodeFiles.ofDir
  cases config.configFile? with
  | none => simp [hgenesis, hkey, hcert]
  | some document => simp [hgenesis, hkey, hcert, hconfig]

section

variable {allowed : String → Prop} {given : NodeConfig → Prop} {network : Network}

theorem Groundwork.read_filesIn {t : FileTree} {workDir : Place} {valid : ValidatedNode} {r : Registry}
    {plan : Plan} {events history : List Event} (hseparate : Names.Separate allowed)
    (hname : allowed plan.name) (h : Groundwork network valid r plan events)
    (hanswers : t.AnswersAll workDir (events ++ history)) :
    ∀ file ∈ plan.filesIn network,
      (t.replay workDir (events ++ history)).read workDir file.1 = .ok file.2 := by
  obtain ⟨ids, ports, rfl, -, -, -, -⟩ := h
  rw [Plan.written, ← List.map_reverse, List.append_assoc] at hanswers ⊢
  have hbelow : ∀ file ∈ (plan.filesIn network).reverse,
      ∃ names, Path.Below network.root file.1 names := by
    intro file hfile
    have hpath := mem_filePaths_of_mem_contents (List.mem_reverse.mp hfile)
    obtain ⟨last, hbelow⟩ := hseparate.below hname hpath
    exact ⟨_, hbelow⟩
  have hdistinct := List.pairwise_reverse.mpr
    ((pairwise_contents (plan.endpointsIn network).dir network.genesis (plan.configIn network)).imp
      Ne.symm)
  intro file hfile
  exact read_of_written hbelow hdistinct hanswers file (List.mem_reverse.mpr hfile)

/-- A file of one node is read as before when something is asked for to set up another. -/
theorem read_after_of_isFor {t : FileTree} {workDir : Place} {path text name : String}
    {settings : NodeSettings} {names : List String} {request : HostRequest} {reply : request.Reply}
    (hseparate : Names.Separate allowed) (hname : allowed name)
    (hrequest : request.IsFor network name settings) (hpath : Path.Below network.root path names)
    (hnames : ∀ file, names ≠ Path.components name ++ [file])
    (hread : t.read workDir path = .ok text) :
    (t.after workDir ⟨request, reply⟩).read workDir path = .ok text := by
  cases request with
  | makeRoot => cases hrequest
  | makeDir dir => exact FileTree.read_makeDirs dir hread
  | writeFile path' text' =>
      obtain ⟨file, hbelow⟩ := hseparate.below hname hrequest
      change ((t.write workDir path' text').toOption.getD t).read workDir path = .ok text
      cases hwrite : t.write workDir path' text' with
      | error e => exact hread
      | ok t' => exact FileTree.read_write_of_ne hpath hbelow (hnames file) hread hwrite
  | _ => exact hread

/-- The files of a node are there, with what is recorded of it. -/
def Node.HasFiles (network : Network) (node : Node) (files : FileTree) (workDir : Place) : Prop :=
  ∀ file ∈ (NodeFiles.ofDir node.endpoints.dir node.config).contents network.genesis node.config,
    files.read workDir file.1 = .ok file.2

theorem lasting_written (hseparate : Names.Separate allowed) (network : Network) :
    Lasting allowed given network fun _ history => ∀ path text reply,
      ⟨.writeFile path text, reply⟩ ∈ history → ∃ names, Path.Below network.root path names where
  start := by
    intro path text reply hmem
    cases List.mem_singleton.mp hmem
  sub _ h := h
  others h _ hname hrequest path text reply hmem := by
    rcases List.mem_cons.mp hmem with heq | hmem
    · cases heq
      obtain ⟨file, hbelow⟩ := hseparate.below hname hrequest
      exact ⟨_, hbelow⟩
    · exact h path text reply hmem
  shutDown h hshutDown path text reply hmem := by
    rcases List.mem_cons.mp hmem with heq | hmem
    · cases heq
      cases hshutDown
    · exact h path text reply hmem
  ready h _ _ := h

theorem lasting_hasFiles (hseparate : Names.Separate allowed) (t : FileTree) (workDir : Place)
    (network : Network) :
    Lasting allowed given network fun nodes history => ∀ node ∈ nodes,
      allowed node.name ∧ node.endpoints.dir = Path.join network.root node.name ∧
        (t.AnswersAll workDir history → node.HasFiles network (t.replay workDir history) workDir) where
  start := nofun
  sub hsub h node hnode := h node (hsub hnode)
  others := by
    intro nodes history name settings request reply h hfree hname hrequest node hnode
    obtain ⟨hallowed, hdir, hfiles⟩ := h node hnode
    refine ⟨hallowed, hdir, fun hanswers file hfile => ?_⟩
    have hpath := mem_filePaths_of_mem_contents hfile
    rw [hdir] at hpath
    obtain ⟨own, hbelow⟩ := hseparate.below hallowed hpath
    refine read_after_of_isFor hseparate hname hrequest hbelow ?_ (hfiles hanswers.1 file hfile)
    intro other heq
    obtain ⟨hcomponents, -⟩ := List.append_inj' heq rfl
    exact hfree node hnode (hseparate.eq_of_components_eq hallowed hname hcomponents)
  shutDown := by
    intro nodes history request reply h hshutDown node hnode
    obtain ⟨hallowed, hdir, hfiles⟩ := h node hnode
    refine ⟨hallowed, hdir, fun hanswers => ?_⟩
    rw [FileTree.replay, FileTree.after_of_isShutDown reply hshutDown]
    exact hfiles hanswers.1
  ready := by
    rintro nodes config name valid w node w' h hadmitted hturn
    refine List.forall_mem_cons.mpr ⟨?_, h⟩
    cases hturn with
    | @ready plan events hplan hground =>
        have hplanName : allowed plan.name := hplan.name ▸ hadmitted.name_allowed
        refine ⟨hplanName, rfl, fun hanswers => ?_⟩
        -- the launch, the start and the client change no files
        exact hground.read_filesIn hseparate hplanName hanswers.1.1.1

/-- The files at the paths in a node's flags are there, with what is recorded of the node. -/
structure Node.FilesIntact (network : Network) (node : Node) (flags : Flags) (files : FileTree)
    (workDir : Place) : Prop where
  genesis : ∃ path, flags.get? "genesis" = some (.text path) ∧
    files.read workDir path = .ok network.genesis
  stakingKey : ∃ path, flags.get? "staking-tls-key-file" = some (.text path) ∧
    files.read workDir path = .ok node.config.stakingKey
  stakingCert : ∃ path, flags.get? "staking-tls-cert-file" = some (.text path) ∧
    files.read workDir path = .ok node.config.stakingCert
  configFile : ∀ document, node.config.configFile? = some document →
    ∃ path, flags.get? "config-file" = some (.text path) ∧ files.read workDir path = .ok document

theorem Node.HasFiles.filesIntact {node : Node} {flags : Flags} {files : FileTree} {workDir : Place}
    (h : node.HasFiles network files workDir)
    (hflags : CarriesFiles (NodeFiles.ofDir node.endpoints.dir node.config) flags) :
    node.FilesIntact network flags files workDir := by
  have hread : ∀ path text, (path, text) ∈
      (NodeFiles.ofDir node.endpoints.dir node.config).contents network.genesis node.config →
      files.read workDir path = .ok text := fun path text => h (path, text)
  refine ⟨⟨_, hflags.genesis, ?_⟩, ⟨_, hflags.stakingKey, ?_⟩, ⟨_, hflags.stakingCert, ?_⟩, ?_⟩
  · exact hread _ _ (by simp [NodeFiles.contents])
  · exact hread _ _ (by simp [NodeFiles.contents])
  · exact hread _ _ (by simp [NodeFiles.contents])
  · intro document hdocument
    have hpath : (NodeFiles.ofDir node.endpoints.dir node.config).config = some _ :=
      NodeFiles.config_ofDir hdocument
    refine ⟨_, hflags.config _ hpath, hread _ _ ?_⟩
    rw [NodeFiles.contents, hpath, hdocument]
    simp

/-- **Files.** If the nodes have separate names, then every file that is written lies below the root
directory of the network. On a host that keeps files, every registered node was launched with paths of
files that still hold what is recorded of the node, whatever is going on. -/
theorem files_intact (hseparate : Names.Separate allowed) {w : World} (h : Visited allowed network w) :
    (∀ path text reply, ⟨.writeFile path text, reply⟩ ∈ w.history →
      ∃ names, Path.Below network.root path names) ∧
    ∀ (files : FileTree) (workDir : Place), files.AnswersAll workDir w.history →
      ∀ node ∈ w.registry.nodes.values, ∃ (flags : Flags) (args : List String),
        ⟨.launch node.config args, .ok node.process⟩ ∈ w.history ∧ flags.RenderAs args ∧
        node.FilesIntact network flags (files.replay workDir w.history) workDir := by
  refine ⟨h.has (lasting_written hseparate) hseparate.generated, ?_⟩
  intro files workDir hanswers node hnode
  obtain ⟨-, -, hfiles⟩ :=
    h.has (lasting_hasFiles hseparate files workDir) hseparate.generated node hnode
  obtain ⟨-, bootstrap, hlaunched⟩ :=
    h.has (lasting_launchedIn allowed) hseparate.generated node hnode
  exact ⟨_, _, hlaunched, Flags.renderAs_arguments _,
    (hfiles hanswers).filesIntact (network.carriesFiles_launchFlags _ _ _ _)⟩

end

/-! ### Hosts that keep files -/

namespace FileTree

/-- A host that keeps files, and answers everything else as another one does. -/
def host (t : FileTree) (workDir : Place) (other : World.Oracle) : World.Oracle := fun history request =>
  match request with
  | .makeRoot =>
    match other history .makeRoot with
    | .error fault => .error fault
    | .ok root =>
      match (t.replay workDir history).makeDir workDir root with
      | .error error => .error ⟨error, root⟩
      | .ok _ => .ok root
  | .makeDir path => ((t.replay workDir history).makeDirs workDir path).2
  | .writeFile path text => ((t.replay workDir history).write workDir path text).map fun _ => ()
  | request => other history request

variable (t : FileTree) (workDir : Place) (other : World.Oracle)

theorem answers_host (w : World) (request : HostRequest) :
    (t.replay workDir w.history).Answers workDir
      ⟨request, w.grant request (t.host workDir other w.history request)⟩ := by
  cases request with
  | makeRoot =>
      change Answers _ _ ⟨.makeRoot, t.host workDir other w.history .makeRoot⟩
      unfold host
      dsimp only
      cases other w.history .makeRoot with
      | error fault => trivial
      | ok root =>
          dsimp only
          cases hmade : (t.replay workDir w.history).makeDir workDir root with
          | error e => trivial
          | ok t' =>
              change ((t.replay workDir w.history).makeDir workDir root).isOk
              rw [hmade]
              rfl
  | makeDir path => rfl
  | writeFile path text => rfl
  | _ => trivial

theorem answersAll_run {α : Type} (task : Task α) (w : World) (h : t.AnswersAll workDir w.history) :
    t.AnswersAll workDir (World.run (t.host workDir other) task w).2.history :=
  (World.kept_along (fun w request h => ⟨h, t.answers_host workDir other w request⟩) task h).1

end FileTree

namespace Rehearsal.Host

theorem files_after (h : Host) (w : World) (request : HostRequest) :
    (h.after request).files = h.files.after h.workDir ⟨request, w.grant request (h.answer request)⟩ := by
  cases request with
  | makeRoot =>
      change (h.files.makeDir h.workDir h.rootPath).toOption.getD h.files =
        h.files.after h.workDir ⟨.makeRoot, h.answer .makeRoot⟩
      unfold answer
      cases hmade : h.files.makeDir h.workDir h.rootPath with
      | error e => rfl
      | ok t' => simp [FileTree.after, hmade]
  | _ => rfl

theorem answers_answer (h : Host) (w : World) (request : HostRequest) :
    h.files.Answers h.workDir ⟨request, w.grant request (h.answer request)⟩ := by
  cases request with
  | makeRoot =>
      change h.files.Answers h.workDir ⟨.makeRoot, h.answer .makeRoot⟩
      unfold answer
      cases hmade : h.files.makeDir h.workDir h.rootPath with
      | error e => trivial
      | ok t' =>
          change (h.files.makeDir h.workDir h.rootPath).isOk
          rw [hmade]
          rfl
  | makeDir path => rfl
  | writeFile path text => rfl
  | _ => trivial

theorem workDir_after (h : Host) (request : HostRequest) : (h.after request).workDir = h.workDir := by
  cases request <;> rfl

/-- The host of a rehearsal keeps files, from those that it has at first. -/
theorem answersAll_run {α : Type} {t : FileTree} (task : Task α) {h h' : Host} {elapsed elapsed' : Nat}
    {w w' : World} {a : α} (hrun : h.run elapsed task w = (a, w', h', elapsed'))
    (hfiles : h.files = t.replay h.workDir w.history)
    (hanswers : t.AnswersAll h.workDir w.history) :
    h'.files = t.replay h.workDir w'.history ∧ t.AnswersAll h.workDir w'.history := by
  induction task generalizing h elapsed w with
  | done b =>
      cases hrun
      exact ⟨hfiles, hanswers⟩
  | ask request next ih =>
      cases request with
      | registry => exact ih _ hrun hfiles hanswers
      | setRegistry r =>
          change h.run elapsed (next ()) { w with registry := r } = _ at hrun
          exact ih _ hrun hfiles hanswers
      | host request =>
          have hworkDir := h.workDir_after request
          have hafter := h.files_after w request
          have hanswer := h.answers_answer w request
          rw [hfiles] at hafter hanswer
          rw [← hworkDir] at hafter hanswers hanswer ⊢
          exact ih _ hrun hafter ⟨hanswers, hanswer⟩

end Rehearsal.Host

def filingHost : World.Oracle := FileTree.empty.host [] willingHost

theorem answersAll_of_run {α : Type} {task : Task α} {a : α} {w : World}
    (h : World.run filingHost task .blank = (a, w)) : FileTree.empty.AnswersAll [] w.history := by
  have hanswers := FileTree.empty.answersAll_run [] willingHost task .blank trivial
  change FileTree.empty.AnswersAll [] (World.run filingHost task .blank).2.history at hanswers
  rwa [h] at hanswers

/-- Beacons with some names, each with a config file of its own. -/
def filedConfig (names : List String) : NetworkConfig :=
  { soloConfig with
    nodes := names.map fun name =>
      { plainNode name with
        isBeacon := true
        configDocument := some ("\x7b\"comment\":\"" ++ name ++ "\"\x7d") } }

theorem files_intact_of_pair :
    ∃ (network : Network) (w : World),
      World.run filingHost (Network.create (filedConfig ["a", "b"])).run .blank = (.ok network, w) ∧
      Names.Separate Names.Plain ∧ Visited Names.Plain network w ∧
      (∀ path text reply, ⟨.writeFile path text, reply⟩ ∈ w.history →
        ∃ names, Path.Below network.root path names) ∧
      FileTree.empty.AnswersAll [] w.history ∧
      ∃ node ∈ w.registry.nodes.values, ∃ (flags : Flags) (args : List String),
        ⟨.launch node.config args, .ok node.process⟩ ∈ w.history ∧ flags.RenderAs args ∧
        node.FilesIntact network flags (FileTree.empty.replay [] w.history) [] := by
  have hends :
      (match World.run filingHost (Network.create (filedConfig ["a", "b"])).run .blank with
        | (.ok _, w) => w.registry.nodes.values ≠ []
        | (.error _, _) => false) = true := by
    decide +kernel
  split at hends
  next network w hcreate =>
    obtain ⟨node, hnode⟩ := List.exists_mem_of_ne_nil _ (of_decide_eq_true hends)
    have hplain : ∀ name ∈ ["a", "b"], Names.Plain name := by decide +kernel
    have hnamed : ∀ node ∈ (filedConfig ["a", "b"]).nodes, node.NamedBy Names.Plain := by
      intro config hconfig _
      obtain ⟨name, hname, rfl⟩ := List.mem_map.mp hconfig
      exact hplain name hname
    have hvisited : Visited Names.Plain network w := .between (.created hnamed hcreate)
    have hall := files_intact Names.separate_plain hvisited
    have hanswers := answersAll_of_run hcreate
    exact ⟨network, w, hcreate, Names.separate_plain, hvisited, hall.1, hanswers, node, hnode,
      hall.2 _ _ hanswers node hnode⟩
  next => cases hends

/-- Names that are not separate. The second node overwrites the config file of the first one, and the
files of the third one lie beside the root directory of the network. -/
theorem not_intact_of_detours :
    ∃ (network : Network) (w : World),
      World.run filingHost (Network.create (filedConfig ["a", "./a", "../b"])).run .blank =
        (.ok network, w) ∧
      (∃ node ∈ w.registry.nodes.values, ∃ (flags : Flags) (args : List String) (path document : String),
        ⟨.launch node.config args, .ok node.process⟩ ∈ w.history ∧ flags.RenderAs args ∧
        flags.get? "config-file" = some (.text path) ∧ node.config.configFile? = some document ∧
        (FileTree.empty.replay [] w.history).read [] path ≠ .ok document) ∧
      ∃ path text reply root place, ⟨.writeFile path text, reply⟩ ∈ w.history ∧
        (FileTree.empty.replay [] w.history).find [] network.root = .ok root ∧
        (FileTree.empty.replay [] w.history).find [] path = .ok place ∧ ¬ root <+: place := by
  have hends :
      (match World.run filingHost (Network.create (filedConfig ["a", "./a", "../b"])).run .blank with
        | (.ok network, w) =>
          let files := FileTree.empty.replay [] w.history
          (w.registry.nodes.values.any fun node =>
            node.config.configFile?.any fun document =>
              (files.read [] (Path.join node.endpoints.dir "config.json")).toOption ≠ some document) &&
          w.history.any fun
            | ⟨.writeFile path _, _⟩ =>
              (files.find [] network.root).toOption.any fun root =>
                (files.find [] path).toOption.any fun place => ¬ root <+: place
            | _ => false
        | (.error _, _) => false) = true := by
    decide +kernel
  split at hends
  next network w hcreate =>
    obtain ⟨hoverwritten, hbeside⟩ := Bool.and_eq_true_iff.mp hends
    obtain ⟨node, hnode, hread⟩ := List.any_eq_true.mp hoverwritten
    obtain ⟨e, he, hout⟩ := List.any_eq_true.mp hbeside
    refine ⟨network, w, hcreate, ⟨node, hnode, ?_⟩, ?_⟩
    · cases hdocument : node.config.configFile? with
      | none =>
          rw [hdocument] at hread
          cases hread
      | some document =>
          have hvisited : Visited (fun _ => True) network w :=
            .between (.created (fun _ _ _ => trivial) hcreate)
          obtain ⟨-, bootstrap, hlaunched⟩ :=
            hvisited.has (lasting_launchedIn fun _ => True) (fun _ => trivial) node hnode
          have hflags := network.carriesFiles_launchFlags node.config node.endpoints
            (NodeFiles.ofDir node.endpoints.dir node.config) bootstrap
          refine ⟨_, _, _, document, hlaunched, Flags.renderAs_arguments _,
            hflags.config _ (NodeFiles.config_ofDir hdocument), rfl, ?_⟩
          intro heq
          rw [hdocument, Option.any_some, heq] at hread
          exact of_decide_eq_true hread rfl
    · obtain ⟨request, reply⟩ := e
      cases request with
      | writeFile path text =>
          obtain ⟨root, hroot, hout⟩ := (Option.any_eq_true _ _).mp hout
          obtain ⟨place, hplace, hout⟩ := (Option.any_eq_true _ _).mp hout
          exact ⟨path, text, reply, root, place, he, Validation.toOption_eq_some_iff.mp hroot,
            Validation.toOption_eq_some_iff.mp hplace, of_decide_eq_true hout⟩
      | _ => cases hout
  next => cases hends

end Localnet
