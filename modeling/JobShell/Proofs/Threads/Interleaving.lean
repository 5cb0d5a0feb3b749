import JobShell.Execution
import JobShell.Proofs.JobTable.Operations

/-!
# The shell and the collector at the same time

The shell and the collector are two threads that share the job table. Each change of the table is one step, and between two
steps of a thread the other may make any of its own. A pass of the collector holds the collection lock from before its survey
of the groups until it has visited the last of them; the shell takes the lock only to claim a job for the foreground.

`Run` is any order of the steps of the two, with anything answered to waits and signals. What is assumed of the answers is an
`Assumption`: a condition on each event in view of the ones before it. A history holds its newest event first. The terminal is
left out, because no step depends on what becomes of a request to it.
-/

namespace JobShell

/-- The threads of a session. -/
inductive Thread where
  | shell
  | collector
  deriving DecidableEq, Repr

/-! ## The shell -/

/-- A foreground wait: the group to wait for, what it is tracked with if it stops, and the claim that stands behind it; there
is none behind the wait for a pipeline just launched. -/
structure Foreground where
  group : GroupWait
  command : String
  members : List Pid := []
  claimed : Option (JobId × Claim) := none
  deriving DecidableEq, Repr

/-- What an operation of the shell comes to. -/
inductive Reply where
  | launched (id : JobId)
  | ran (result : Except Errno ForegroundOutcome)
  | broughtToForeground (result : Except JobError ForegroundOutcome)
  | sentToBackground (result : Except JobError Unit)
  | killed (result : Except JobError Unit)

namespace Foreground

/-- The wait for a pipeline just launched. -/
def ofLaunched (l : Launched) (command : String) : Foreground :=
  { group := { pgid := l.pgid, expected := l.pids.length, statusPid := l.pids.getLast? }, command, members := l.pids }

/-- The wait for a job that was claimed. -/
def ofClaim (id : JobId) (c : Claim) : Foreground := { group := c.group, command := c.command, claimed := some (id, c) }

/-- What a failed wait leaves of the table: a claimed job is put back. -/
def giveUp (f : Foreground) (t : JobTable) : JobTable :=
  match f.claimed with
  | some (id, c) => t.restore id c
  | none => t

/-- What the operation around the wait comes to. -/
def reply (f : Foreground) (result : Except Errno ForegroundOutcome) : Reply :=
  match f.claimed with
  | some _ => .broughtToForeground (result.mapError .wait)
  | none => .ran result

end Foreground

/-- Where the shell stands in its operation, and what it carries there. -/
inductive ShellPoint where
  /-- Between two operations. -/
  | ready
  /-- With the children of a pipeline made. -/
  | launched (l : Launched) (command : String) (background : Bool)
  /-- In a foreground wait. -/
  | waiting (f : Foreground) (p : WaitProgress)
  /-- After a foreground wait, with its result still to be recorded. -/
  | settling (f : Foreground) (result : Except Errno ForegroundOutcome)
  /-- About to take the lock for a job to continue in the foreground. -/
  | locking (id : JobId)
  /-- With the lock, about to claim the job. -/
  | claiming (id : JobId)
  /-- With the lock, after the claim; nothing was claimed if there is no such job. -/
  | unlocking (id : JobId) (c : Option Claim)
  /-- About to continue a claimed job. -/
  | continuing (id : JobId) (c : Claim)
  /-- About to put back a claimed job that could not be continued. -/
  | restoring (id : JobId) (c : Claim) (cause : Errno)
  /-- About to continue a job in the background. -/
  | signalling (id : JobId) (pgid : Pid)
  /-- About to record a job that goes on in the background. -/
  | resuming (id : JobId)
  /-- About to send a signal to a job; `revive` says that it has to be continued then. -/
  | killing (id : JobId) (pgid : Pid) (signal : Signal) (revive : Bool)
  /-- About to continue a job that was sent a signal. -/
  | reviving (pgid : Pid)
  /-- About to give a notice. -/
  | announcing (n : Notice) (reply : Reply)
  /-- At the end of its operation. -/
  | answering (reply : Reply)

namespace ShellPoint

/-- Gives the notice that is due, if any, and then the reply. -/
def tell (n : Option Notice) (reply : Reply) : ShellPoint :=
  match n with
  | some n => .announcing n reply
  | none => .answering reply

/-- Goes on after the lock was given back. -/
def afterClaim (id : JobId) (c : Option Claim) : ShellPoint :=
  match c with
  | some c => .continuing id c
  | none => .answering (.broughtToForeground (.error (.notFound id)))

/-- The shell has the lock. -/
def holdsLock : ShellPoint → Bool
  | .claiming _ | .unlocking .. => true
  | _ => false

/-- The group the shell waits for. -/
def awaited? : ShellPoint → Option Pid
  | .waiting f _ => some f.group.pgid
  | _ => none

/-- A result of a foreground wait is still to be recorded. -/
def isSettling : ShellPoint → Bool
  | .settling .. => true
  | _ => false

end ShellPoint

/-! ## The collector -/

/-- Where the collector stands in its pass. `work` are the groups that it has still to visit. -/
inductive CollectorPoint where
  /-- Between two passes. -/
  | resting
  /-- With the lock, about to see which groups there are. -/
  | surveying
  /-- About to wait on the first group of its work. -/
  | visiting (work : List Pid)
  /-- With a status change still to be recorded. -/
  | recording (status : WaitStatus) (work : List Pid)
  /-- About to end the job of a group without children. -/
  | concluding (pgid : Pid) (work : List Pid)
  /-- About to give a notice. -/
  | informing (n : Notice) (work : List Pid)
  deriving DecidableEq, Repr

namespace CollectorPoint

/-- Gives the notice that is due, if any, and then goes on. -/
def tell (n : Option Notice) (work : List Pid) : CollectorPoint :=
  match n with
  | some n => .informing n work
  | none => .visiting work

/-- Goes on after a wait on a group: with the same group after a status change or an interruption, else with the rest. -/
def afterPoll (pgid : Pid) (rest : List Pid) : WaitResult → CollectorPoint
  | .ok .stillAlive => .visiting rest
  | .ok status => .recording status (pgid :: rest)
  | .error e =>
    if e = .interrupted then .visiting (pgid :: rest)
    else if e = .noChild then .concluding pgid rest
    else .visiting rest

/-- The groups that the pass has still to do with. -/
def work : CollectorPoint → List Pid
  | .resting | .surveying => []
  | .visiting work | .recording _ work | .informing _ work => work
  | .concluding pgid work => pgid :: work

/-- A pass is on. -/
def inPass : CollectorPoint → Bool
  | .resting => false
  | _ => true

/-- A status change is still to be recorded. -/
def isRecording : CollectorPoint → Bool
  | .recording .. => true
  | _ => false

end CollectorPoint

/-! ## Steps of both -/

/-- What can happen: the steps of the shell and then those of the collector, with what was answered. -/
inductive Event where
  | launch (l : Launched) (command : String) (background : Bool)
  | enlist (id : JobId) (l : Launched)
  | begin (pgid : Pid)
  | await (pgid : Pid) (result : WaitResult)
  | settle (pgid : Pid) (result : WaitResult)
  | complete (pgid : Pid)
  | finish (pgid : Pid)
  | suspend (id : JobId) (f : Foreground)
  | giveUp (pgid : Pid)
  | foreground (id : JobId)
  | lock
  | claim (id : JobId)
  | unlock
  | restore (id : JobId)
  | background (id : JobId)
  | resume (id : JobId)
  | kill (id : JobId) (signal : Signal)
  | signal (pgid : Pid) (signal : Signal) (result : Except Errno Unit)
  | announce (n : Notice)
  | answer (reply : Reply)
  | enter
  | survey
  | poll (pgid : Pid) (result : WaitResult)
  | record (r : Report)
  | conclude (pgid : Pid)
  | inform (n : Notice)
  | leave

/-- What the threads share, and where each of them stands. -/
structure State where
  table : JobTable := {}
  lock : Option Thread := none
  shell : ShellPoint := .ready
  collector : CollectorPoint := .resting
  notices : List Notice := []

namespace ShellPoint

/-- The steps of the shell that change nothing but where it stands. Some look at the table. -/
inductive Moves (t : JobTable) : ShellPoint → Event → ShellPoint → Prop
  | launch (l : Launched) (command : String) (background : Bool) :
    Moves t .ready (.launch l command background) (.launched l command background)
  | begin (l : Launched) (command : String) :
    Moves t (.launched l command false) (.begin l.pgid) (.waiting (.ofLaunched l command) {})
  | await {f : Foreground} {p p' : WaitProgress} {result : WaitResult} (open_ : f.group.isComplete p = false)
    (seen : f.group.observe p result = .proceed p') :
    Moves t (.waiting f p) (.await f.group.pgid result) (.waiting f p')
  | settle {f : Foreground} {p : WaitProgress} {result : WaitResult} {r : Except Errno ForegroundOutcome}
    (open_ : f.group.isComplete p = false) (seen : f.group.observe p result = .settled r) :
    Moves t (.waiting f p) (.settle f.group.pgid result) (.settling f r)
  | complete {f : Foreground} {p : WaitProgress} (complete : f.group.isComplete p = true) :
    Moves t (.waiting f p) (.complete f.group.pgid) (.settling f (.ok (.finished p.status)))
  | foreground (id : JobId) : Moves t .ready (.foreground id) (.locking id)
  | claimNone {id : JobId} (missing : t.claim? id = none) : Moves t (.claiming id) (.claim id) (.unlocking id none)
  | continued (id : JobId) (c : Claim) :
    Moves t (.continuing id c) (.signal c.group.pgid .cont (.ok ())) (.waiting (.ofClaim id c) {})
  | notContinued (id : JobId) (c : Claim) (cause : Errno) :
    Moves t (.continuing id c) (.signal c.group.pgid .cont (.error cause)) (.restoring id c cause)
  | background {id : JobId} {j : Job} (found : t.find? id = some j) :
    Moves t .ready (.background id) (.signalling id j.pgid)
  | backgroundNone {id : JobId} (missing : t.find? id = none) :
    Moves t .ready (.background id) (.answering (.sentToBackground (.error (.notFound id))))
  | signalled (id : JobId) (pgid : Pid) : Moves t (.signalling id pgid) (.signal pgid .cont (.ok ())) (.resuming id)
  | notSignalled (id : JobId) (pgid : Pid) (cause : Errno) :
    Moves t (.signalling id pgid) (.signal pgid .cont (.error cause))
      (.answering (.sentToBackground (.error (.signal id cause))))
  | resumeNone {id : JobId} (missing : t.resume? id = none) :
    Moves t (.resuming id) (.resume id) (.answering (.sentToBackground (.error (.notFound id))))
  | kill {id : JobId} {signal : Signal} {j : Job} (found : t.find? id = some j) :
    Moves t .ready (.kill id signal) (.killing id j.pgid signal (j.state = .stopped && signal.endsJob))
  | killNone {id : JobId} {signal : Signal} (missing : t.find? id = none) :
    Moves t .ready (.kill id signal) (.answering (.killed (.error (.notFound id))))
  | killed (id : JobId) (pgid : Pid) (signal : Signal) (revive : Bool) :
    Moves t (.killing id pgid signal revive) (.signal pgid signal (.ok ()))
      (if revive then .reviving pgid else .answering (.killed (.ok ())))
  | notKilled (id : JobId) (pgid : Pid) (signal : Signal) (revive : Bool) (cause : Errno) :
    Moves t (.killing id pgid signal revive) (.signal pgid signal (.error cause))
      (.answering (.killed (.error (.signal id cause))))
  | revived (pgid : Pid) (result : Except Errno Unit) :
    Moves t (.reviving pgid) (.signal pgid .cont result) (.answering (.killed (.ok ())))
  | answer (reply : Reply) : Moves t (.answering reply) (.answer reply) .ready

/-- The steps of the shell that change the table. -/
inductive Changes : JobTable → ShellPoint → Event → JobTable → ShellPoint → Prop
  | enlist {t t' : JobTable} {l : Launched} {command : String} {id : JobId}
    (added : t.addPipeline l.pgid command true l.pids = (t', id)) :
    Changes t (.launched l command true) (.enlist id l) t' (.announcing (.started id l.pgid command) (.launched id))
  | finish {t t' : JobTable} {f : Foreground} {status : ExitStatus} {n : Option Notice}
    (finished : t.markFinished f.group.pgid status = (t', n)) :
    Changes t (.settling f (.ok (.finished status))) (.finish f.group.pgid) t' (.tell n (f.reply (.ok (.finished status))))
  | suspend {t t' : JobTable} {f : Foreground} {signal : Signal} {live : Nat} {id : JobId} {n : Option Notice}
    (tracked : t.trackStopped f.group.pgid f.command live f.members = (t', id, n)) :
    Changes t (.settling f (.ok (.stopped signal live))) (.suspend id f) t'
      (.tell n (f.reply (.ok (.stopped signal live))))
  | giveUp (t : JobTable) (f : Foreground) (cause : Errno) :
    Changes t (.settling f (.error cause)) (.giveUp f.group.pgid) (f.giveUp t) (.answering (f.reply (.error cause)))
  | claim {t t' : JobTable} {id : JobId} {c : Claim} (claimed : t.claim? id = some (t', c)) :
    Changes t (.claiming id) (.claim id) t' (.unlocking id (some c))
  | restore (t : JobTable) (id : JobId) (c : Claim) (cause : Errno) :
    Changes t (.restoring id c cause) (.restore id) (t.restore id c)
      (.answering (.broughtToForeground (.error (.signal id cause))))
  | resume {t t' : JobTable} {id : JobId} {n : Notice} (resumed : t.resume? id = some (t', n)) :
    Changes t (.resuming id) (.resume id) t' (.announcing n (.sentToBackground (.ok ())))

end ShellPoint

/-- One step of one thread. -/
inductive Step : State → Event → State → Prop
  | move {s : State} {e : Event} {p : ShellPoint} (moves : s.shell.Moves s.table e p) : Step s e { s with shell := p }
  | change {s : State} {e : Event} {t : JobTable} {p : ShellPoint} (changes : s.shell.Changes s.table e t p) :
    Step s e { s with table := t, shell := p }
  | lock {s : State} {id : JobId} (at_ : s.shell = .locking id) (free : s.lock = none) :
    Step s .lock { s with lock := some .shell, shell := .claiming id }
  | unlock {s : State} {id : JobId} {c : Option Claim} (at_ : s.shell = .unlocking id c) :
    Step s .unlock { s with lock := none, shell := .afterClaim id c }
  | announce {s : State} {n : Notice} {reply : Reply} (at_ : s.shell = .announcing n reply) :
    Step s (.announce n) { s with notices := s.notices ++ [n], shell := .answering reply }
  | enter {s : State} (at_ : s.collector = .resting) (free : s.lock = none) :
    Step s .enter { s with lock := some .collector, collector := .surveying }
  | survey {s : State} (at_ : s.collector = .surveying) :
    Step s .survey { s with collector := .visiting s.table.backgroundGroups }
  | poll {s : State} {pgid : Pid} {rest : List Pid} (at_ : s.collector = .visiting (pgid :: rest)) (result : WaitResult) :
    Step s (.poll pgid result) { s with collector := .afterPoll pgid rest result }
  | record {s : State} {r : Report} {work : List Pid} {t : JobTable} {n : Option Notice}
    (at_ : s.collector = .recording r.status work) (recorded : s.table.childStatus r.groupOf r.status = (t, n)) :
    Step s (.record r) { s with table := t, collector := .tell n work }
  | conclude {s : State} {pgid : Pid} {work : List Pid} {t : JobTable} {n : Option Notice}
    (at_ : s.collector = .concluding pgid work) (ended : s.table.markFinished pgid .unknown = (t, n)) :
    Step s (.conclude pgid) { s with table := t, collector := .tell n work }
  | inform {s : State} {n : Notice} {work : List Pid} (at_ : s.collector = .informing n work) :
    Step s (.inform n) { s with notices := s.notices ++ [n], collector := .visiting work }
  | leave {s : State} (at_ : s.collector = .visiting []) :
    Step s .leave { s with lock := none, collector := .resting }

/-! ## Runs -/

/-- What is assumed of the next event when these events, newest first, have happened. -/
abbrev Assumption := List Event → Event → Prop

/-- From one state to a later one by steps of both threads. The events before each state, newest first, stand beside it. -/
inductive Run (A : Assumption) (es : List Event) (s : State) : List Event → State → Prop
  | refl : Run A es s es s
  | step {es' : List Event} {e : Event} {s' s'' : State} (before : Run A es s es' s') (assumed : A es' e)
    (next : Step s' e s'') : Run A es s (e :: es') s''

/-- A state that a run from the start leads to. -/
abbrev Reachable (A : Assumption) (es : List Event) (s : State) : Prop := Run A [] {} es s

namespace Run

variable {A B : Assumption} {es es' es'' : List Event} {s s' s'' : State}

/-- A run goes on where another one ended. -/
theorem trans (h : Run A es s es' s') (h' : Run A es' s' es'' s'') : Run A es s es'' s'' := by
  induction h' with
  | refl => exact h
  | step _ ha hs ih => exact .step ih ha hs

/-- A run under an assumption is one under a weaker assumption. -/
theorem weaken (hAB : ∀ es e, A es e → B es e) (h : Run A es s es' s') : Run B es s es' s' := by
  induction h with
  | refl => exact .refl
  | step _ ha hs ih => exact .step ih (hAB _ _ ha) hs

/-- What every step keeps holds after a run when it holds before it. -/
theorem invariant {P : List Event → State → Prop}
    (keep : ∀ {es e s s'}, P es s → A es e → Step s e s' → P (e :: es) s') (h : Run A es s es' s') (h0 : P es s) :
    P es' s' := by
  induction h with
  | refl => exact h0
  | step _ ha hs ih => exact keep ih ha hs

/-- A run adds its events to the ones before it. -/
theorem history (h : Run A es s es' s') : ∃ new, es' = new ++ es := by
  induction h with
  | refl => exact ⟨[], rfl⟩
  | @step es' e _ _ _ _ _ ih =>
    obtain ⟨new, rfl⟩ := ih
    exact ⟨e :: new, rfl⟩

/-- What holds of a state and of no events since, and what every step of the run keeps with its event, holds of the events that the
run adds. -/
theorem since {P : List Event → State → Prop} {new : List Event} (h : Run A es s (new ++ es) s') (h0 : P [] s)
    (keep : ∀ {new e s' s''}, Run A es s (new ++ es) s' → P new s' → Step s' e s'' → P (e :: new) s'') : P new s' := by
  generalize he : new ++ es = es' at h
  induction h generalizing new with
  | refl =>
    obtain rfl := List.append_cancel_right (he.trans (List.nil_append es).symm)
    exact h0
  | @step es' e s' s'' before assumed next ih =>
    obtain ⟨old, rfl⟩ := before.history
    obtain rfl := List.append_cancel_right (he.trans (List.cons_append ..).symm)
    exact keep before (ih rfl) next

end Run

end JobShell
