import Localnet.Config.Document
import Localnet.Network.Machine
import Localnet.Rehearsal.Step

/-!
Rehearsals: a network runs with a scripted host, in a time that stands still while there is something
to do and jumps to the next moment at which something happens. Waits in the background go on only
while a step has to wait.
-/

namespace Localnet.Rehearsal

structure Session where
  host : Host
  now : Nat
  machine : Option Machine
  /-- Whether steps may still use the network. -/
  isOwned : Bool
  background : List Nat
  waits : Table Nat
  held : Table Node
  /-- When the answer comes that the host was asked for. -/
  answerDue : Option Nat
  moves : Nat

/-- What a step wants from a call of the network. -/
inductive Purpose where
  | answer
  | healthy
  | files
  | wait
  | check
  | hold

inductive Job where
  | pending (action : Action)
  | calling (purpose : Purpose) (thread : Nat)
  | awaiting (thread : Nat)
  | sleeping (till : Nat)
  | checking (check : Check)
  | joining (jobs : List Job)
  | done (outcome : Outcome)

mutual

def Job.ofStep : Step → Job
  | .one action => .pending action
  | .join steps => .joining (Job.ofSteps steps)

def Job.ofSteps : List Step → List Job
  | [] => []
  | step :: steps => Job.ofStep step :: Job.ofSteps steps

end

mutual

def Job.outcome? : Job → Option Outcome
  | .done outcome => some outcome
  | .joining jobs => (Job.outcomes? jobs).map .joined
  | .pending _ | .calling _ _ | .awaiting _ | .sleeping _ | .checking _ => none

def Job.outcomes? : List Job → Option (List Outcome)
  | [] => some []
  | job :: jobs => do return (← job.outcome?) :: (← Job.outcomes? jobs)

end

mutual

/-- The moments at which a step may go on. -/
def Job.timers : Job → List Nat
  | .sleeping till => [till]
  | .checking check => check.due.toList
  | .joining jobs => Job.allTimers jobs
  | .pending _ | .calling _ _ | .awaiting _ | .done _ => []

def Job.allTimers : List Job → List Nat
  | [] => []
  | job :: jobs => job.timers ++ Job.allTimers jobs

end

namespace Session

def patience : Nat := 1000000

def moved (s : Session) (m : Machine) : Session :=
  { s with machine := some m, moves := s.moves + 1 }

/-- The next thread gets the registry. A wait that sees the nodes begins to check them. -/
def handOver (s : Session) (m : Machine) (id : Nat) : Option Session :=
  let surveys :=
    match m.thread? id with
    | some (.waiting wait) => wait.surveys && !m.world.registry.stopped
    | _ => false
  let (fates, host) :=
    if surveys then s.host.checkAll m.world.registry.nodes.values else ([], s.host)
  let fate (client : Client) : Fate := (fates.lookup client).getD ⟨none, .ok false⟩
  (m.handOver fate).map { s with host }.moved

def answer (s : Session) (m : Machine) (request : HostRequest) : Option Session :=
  let due := s.answerDue.getD (s.now + s.host.delay request)
  if due ≤ s.now then
    (m.reply s.host.answer).map { s with host := s.host.after request, answerDue := none }.moved
  else if s.answerDue.isNone then some { s with answerDue := some due, moves := s.moves + 1 }
  else none

/-- One move of a thread, if it can make one now. -/
def move? (s : Session) (id : Nat) : Option Session := do
  let m ← s.machine
  if m.isNext id then s.handOver m id
  else
    match m.request? id with
    | some request => s.answer m request
    | none => ((m.advance id).or (m.expire id)).map s.moved

/-- All moves that a thread can make now, at most `fuel`. -/
def runThread (s : Session) (id : Nat) : (fuel : Nat) → Session
  | 0 => s
  | fuel + 1 =>
    match s.move? id with
    | some s => s.runThread id fuel
    | none => s

/-- What came of a thread, if it has ended. -/
def result? (s : Session) (id : Nat) : Option (Except NetworkError Answer) :=
  s.machine.bind (·.result? id)

/-- The network, if steps may still use it. -/
def usable? (s : Session) : Option Machine := if s.isOwned then s.machine else none

/-- Adds a thread to the network; the step goes on with it. -/
def call (s : Session) (purpose : Purpose) (move : Move) : Session × Job :=
  match s.usable?.bind (·.apply move) with
  | some m => (s.moved m, .calling purpose (m.threads.length - 1))
  | none => (s, .done .noNetwork)

def waitOutcome : Except NetworkError Answer → Outcome
  | .ok _ => .healthy
  | .error e => .failed e

def checkOutcome : Except Failure Bool → Outcome
  | .ok healthy => .health healthy
  | .error failure => .unanswered failure.message

def answerOutcome : Answer → Outcome
  | .done => .done
  | .node node => .node node
  | .names names => .names names
  | .nodes nodes => .nodes nodes

def filesOf (s : Session) (node : Node) : List (List String × FileEntry) :=
  match s.host.files.find s.host.workDir node.endpoints.dir with
  | .ok place => s.host.files.below place
  | .error _ => []

def conclude (s : Session) : Purpose → Except NetworkError Answer → Session × Job
  | .healthy, result => (s, .done (waitOutcome result))
  | _, .error e => (s, .done (.failed e))
  | .files, .ok (.node node) => (s, .done (.files node (s.filesOf node)))
  | .wait, .ok (.node node) =>
    let ended := s.host.attempt .wait node.name
    (s, .done (match ended with | .ok () => .done | .error failure => .crashed failure.message))
  | .check, .ok (.node node) =>
    let (behaviour, host) := s.host.check node.name
    ({ s with host }, .checking (.ofFate s.now node.client (behaviour.fate node.name)))
  | .hold, .ok (.node node) => ({ s with held := s.held.insert node.name node }, .done .done)
  | _, .ok answer => (s, .done (answerOutcome answer))

/-- Whether a wait in the background still uses the network. -/
def isShared (s : Session) : Bool := s.background.any fun id => (s.result? id).isNone

/-- Removes the network's directory once nobody uses the network. -/
def release (s : Session) : Session :=
  if s.isOwned ∨ s.isShared then s else { s with host := s.host.removeRoot }

def begins (s : Session) : Action → Session × Job
  | .add document =>
    if s.usable?.isNone then (s, .done .noNetwork)
    else
      match NodeConfig.parse document with
      | .ok config => s.call .answer (.call (.add config))
      | .error e => (s, .done (.unreadable e))
  | .remove name => s.call .answer (.call (.remove name))
  | .get name => s.call .answer (.call (.get name))
  | .names => s.call .answer (.call .names)
  | .all => s.call .answer (.call .all)
  | .stop => s.call .answer (.call .stop)
  | .healthy timeout => s.call .healthy (.wait (s.now + timeout))
  | .spawn id timeout =>
    match s.call .healthy (.wait (s.now + timeout)) with
    | (s, .calling _ thread) =>
      ({ s with background := s.background ++ [thread], waits := s.waits.insert id thread },
        .done .done)
    | other => other
  | .poll id =>
    match s.waits.get? id with
    | none => (s, .done .closed)
    | some thread =>
      match s.result? thread with
      | some result => ({ s with waits := s.waits.erase id }, .done (waitOutcome result))
      | none => (s, .done .pending)
  | .await id =>
    match s.waits.get? id with
    | none => (s, .done .closed)
    | some thread => ({ s with waits := s.waits.erase id }, .awaiting thread)
  | .files name => s.call .files (.call (.get name))
  | .wait name => s.call .wait (.call (.get name))
  | .check name => s.call .check (.call (.get name))
  | .info =>
    match s.usable? with
    | some m => (s, .done (.network m.network s.host.rootExists))
    | none => (s, .done .noNetwork)
  | .hold name => s.call .hold (.call (.get name))
  | .held name =>
    match s.held.get? name with
    | some node => (s, .done (.node node))
    | none => (s, .done .notHeld)
  | .drop =>
    if s.usable?.isNone then (s, .done .noNetwork)
    else
      let s := { s with isOwned := false }.release
      (s, .done (.dropped s.host.rootExists))
  | .touch path text =>
    let files := (s.host.files.write s.host.workDir path text).toOption.getD s.host.files
    ({ s with host := { s.host with files } }, .done .done)
  | .exists path => (s, .done (.exists (s.host.files.contains s.host.workDir path)))
  | .sleep duration => (s, .sleeping (s.now + duration))
  | .follow mishaps slowStarts health =>
    ({ s with host := s.host.follow mishaps slowStarts health }, .done .done)

/-- Goes on with a step that was begun, without the steps that it joins. -/
def goOn (s : Session) : Job → Session × Job
  | .calling purpose thread =>
    let s := s.runThread thread patience
    match s.result? thread with
    | some result => s.conclude purpose result
    | none => (s, .calling purpose thread)
  | .awaiting thread =>
    match s.result? thread with
    | some result => (s, .done (waitOutcome result))
    | none => (s, .awaiting thread)
  | .sleeping till => (s, if till ≤ s.now then .done .done else .sleeping till)
  | .checking check =>
    (s, if check.isAnswered s.now then .done (checkOutcome check.answer) else .checking check)
  | job => (s, job)

mutual

/-- Goes on with a step as far as that is possible now. -/
def poll (s : Session) : Job → Session × Job
  | .pending action =>
    let (s, job) := s.begins action
    let (s, job) := s.goOn job
    s.goOn job
  | .joining jobs =>
    let (s, jobs) := s.pollAll jobs
    (s, .joining jobs)
  | job =>
    let (s, job) := s.goOn job
    s.goOn job

def pollAll (s : Session) : List Job → Session × List Job
  | [] => (s, [])
  | job :: jobs =>
    let (s, job) := s.poll job
    let (s, jobs) := s.pollAll jobs
    (s, job :: jobs)

end

def runBackground (s : Session) : Session :=
  (s.background.foldl (fun s id => s.runThread id patience) s).release

/-- The next moment at which something may happen. -/
def nextMoment? (s : Session) (job : Job) : Option Nat :=
  let threads := (s.machine.map (·.threads)).getD []
  let timers := threads.flatMap fun
    | .waiting wait => wait.timers
    | .calling _ | .ended _ => []
  ((job.timers ++ s.answerDue.toList ++ timers).filter (s.now < ·)).min?

def tickTo? (s : Session) (moment : Nat) : Option Session :=
  match s.machine with
  | none => some { s with now := moment }
  | some m =>
    (m.tick (moment - s.now)).map fun m => { s with now := moment, machine := some m }

/-- Takes a step to its end, in at most `fuel` rounds. -/
def finish (s : Session) (job : Job) : (fuel : Nat) → Session × Job
  | 0 => (s, job)
  | fuel + 1 =>
    let moves := s.moves
    let (s, job) := s.poll job
    if job.outcome?.isSome then (s, job)
    else
      let s := s.runBackground
      if s.moves ≠ moves then s.finish job fuel
      else
        match (s.nextMoment? job).bind s.tickTo? with
        | some s => s.finish job fuel
        | none => (s, job)

/-- What came of a move that adds a thread, once the thread has ended. -/
def request (s : Session) (move : Move) : Option (Except NetworkError Answer) × Session :=
  match s.call .answer move with
  | (s, .calling purpose thread) =>
    let s := (s.finish (.calling purpose thread) patience).1
    (s.result? thread, s)
  | (s, _) => (none, s)

def fresh (s : Session) : Session := { s with host := { s.host with checks := ∅, acts := [] } }

def report (s : Session) (since : Nat) (outcome : Outcome) : Report :=
  ⟨outcome, s.now - since, s.host.checks, s.host.acts.reverse⟩

def take (s : Session) (step : Step) : Report × Session :=
  let since := s.now
  let (s, job) := s.fresh.finish (.ofStep step) patience
  (s.report since (job.outcome?.getD .pending), s)

/-- A session without a network. -/
def ofHost (host : Host) (now : Nat) : Session := ⟨host, now, none, false, [], ∅, ∅, none, 0⟩

/-- Creates the network of a configuration. The directory of one that failed is removed. -/
def create (host : Host) (interval : Nat) (config : NetworkConfig) :
    Except NetworkError Network × Session :=
  let (result, world, host, elapsed) := host.run 0 (Network.create config).run ⟨.empty 0, []⟩
  match result with
  | .ok network =>
    (.ok network,
      { ofHost host elapsed with
        machine := some (.start network interval elapsed world)
        isOwned := true })
  | .error e => (.error e, ofHost host.removeRoot elapsed)

def takeAll (s : Session) : List Step → List Report
  | [] => []
  | step :: steps =>
    let (report, s) := s.take step
    report :: s.takeAll steps

end Session

/-- Creates a network and takes steps with it; the first report is that of the creation. -/
def rehearse (host : Host) (interval : Nat) (config : NetworkConfig) (steps : List Step) :
    List Report :=
  let (result, session) := Session.create host interval config
  let outcome := match result with
    | .ok _ => .done
    | .error e => .failed e
  session.report 0 outcome :: session.takeAll steps

end Localnet.Rehearsal
