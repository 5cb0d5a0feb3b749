import JobShell.Wait

/-!
# The job table

The table is the one account of all jobs. Each function here is one change that happens at once, with no other part of the
shell between its reading and its writing; it gives the new table and the notice that is due, if any. What takes longer (a
signal, a wait) stands between two such changes, never inside one.

A job is numbered when it is registered, no number is given twice, and the jobs stand in the order of their numbers. A job
ends when the last of its live processes is collected, and an ended job leaves the table with the change that ended it.
-/

namespace JobShell

/-- A tracked job. `members` are the processes in the order of the stages, where they are known; `live` counts the ones not
collected yet; `waited` says that a foreground wait owns the group. -/
structure Job where
  id : JobId
  pgid : Pid
  command : String
  state : JobState := .running
  background : Bool
  live : Nat
  members : List Pid := []
  waited : Bool := false
  deriving DecidableEq, Repr

namespace Job

/-- What is shown of the job. -/
def info (j : Job) : JobInfo :=
  { id := j.id, pgid := j.pgid, command := j.command, state := j.state, background := j.background, live := j.live }

/-- The job has not ended. -/
def isTracked (j : Job) : Bool := j.state != .done

/-- The job when it ends. -/
def finish (j : Job) : Job := { j with live := 0, state := .done, waited := false }

/-- The notice of the end; only a background job has one. -/
def endNotice (j : Job) (status : ExitStatus) : Option Notice :=
  if j.background then some (.finished j.id j.command status) else none

end Job

/-- All tracked jobs, and the last number given. -/
structure JobTable where
  lastId : JobId := 0
  jobs : List Job := []
  deriving DecidableEq, Repr

/-- What a foreground wait takes from the job it continues: the group to wait for, and what has to be put back if the job
cannot be continued. -/
structure Claim where
  group : GroupWait
  command : String
  background : Bool
  state : JobState
  deriving DecidableEq, Repr

namespace JobTable

/-- The job with this number. -/
def find? (t : JobTable) (id : JobId) : Option Job := t.jobs.find? (·.id == id)

/-- The job of this group. -/
def ofGroup? (t : JobTable) (pgid : Pid) : Option Job :=
  t.jobs.find? fun j => j.pgid == pgid && j.isTracked

/-- The job that a process belongs to: one that has it as a member, else the one of its group. -/
def ownerOf? (t : JobTable) (pid group : Pid) : Option Job :=
  (t.jobs.find? fun j => j.isTracked && j.members.contains pid).or
    (t.jobs.find? fun j => j.isTracked && j.pgid == group)

/-- The table with the job of this number changed. -/
def modify (t : JobTable) (id : JobId) (change : Job → Job) : JobTable :=
  { t with jobs := t.jobs.map fun j => if j.id == id then change j else j }

/-- The table without the jobs that have ended. -/
def sweep (t : JobTable) : JobTable := { t with jobs := t.jobs.filter Job.isTracked }

/-- Registers a running job. -/
def insert (t : JobTable) (pgid : Pid) (command : String) (background : Bool) (live : Nat) (members : List Pid) :
    JobTable × JobId :=
  let id := t.lastId + 1
  ({ lastId := id, jobs := t.jobs ++ [{ id, pgid, command, background, live, members }] }, id)

/-- Registers a job of `count` processes that are not known one by one. -/
def add (t : JobTable) (pgid : Pid) (command : String) (background : Bool) (count : Nat) : JobTable × JobId :=
  t.insert pgid command background count []

/-- Registers a pipeline with its processes in the order of the stages. -/
def addPipeline (t : JobTable) (pgid : Pid) (command : String) (background : Bool) (members : List Pid) :
    JobTable × JobId :=
  t.insert pgid command background members.length members

/-- Ends this job. -/
def finish (t : JobTable) (j : Job) (status : ExitStatus) : JobTable × Option Notice :=
  ((t.modify j.id Job.finish).sweep, j.endNotice status)

/-- Ends the job of a group; a group without a job is passed over. -/
def markFinished (t : JobTable) (pgid : Pid) (status : ExitStatus) : JobTable × Option Notice :=
  match t.ofGroup? pgid with
  | some j => t.finish j status
  | none => (t.sweep, none)

/-- Accounts for the end of one process, whose group is `group`. The job ends with the last of them. -/
def childExited (t : JobTable) (pid group : Pid) (status : ExitStatus) : JobTable × Option Notice :=
  match t.ownerOf? pid group with
  | none => (t, none)
  | some j =>
    if j.live - 1 = 0 then t.finish j status
    else ((t.modify j.id fun j => { j with live := j.live - 1 }).sweep, none)

/-- Records that a process, whose group is `group`, stopped or went on. A job that stops is news. -/
def childMoved (t : JobTable) (pid group : Pid) (state : JobState) : JobTable × Option Notice :=
  match t.ownerOf? pid group with
  | none => (t, none)
  | some j =>
    (t.modify j.id fun j => { j with state },
      if j.state ≠ state ∧ state = .stopped then some (.stopped j.id j.command) else none)

/-- Accounts for a status change. `groupOf` answers which group a process is in; a process it does not know counts as a group
of its own. -/
def childStatus (t : JobTable) (groupOf : Pid → Option Pid) (status : WaitStatus) : JobTable × Option Notice :=
  match status with
  | .stopped pid _ => t.childMoved pid ((groupOf pid).getD pid) .stopped
  | .continued pid => t.childMoved pid ((groupOf pid).getD pid) .running
  | _ =>
    match status.pid?, status.exit? with
    | some pid, some exit => t.childExited pid ((groupOf pid).getD pid) exit
    | _, _ => (t, none)

/-- Records that a group stopped in the foreground; a group without a job is registered. -/
def trackStopped (t : JobTable) (pgid : Pid) (command : String) (live : Nat) (members : List Pid) :
    JobTable × JobId × Option Notice :=
  let (t, id) := match t.ofGroup? pgid with
    | some j => (t, j.id)
    | none => t.insert pgid command false live members
  (t.modify id fun j => { j with state := .stopped, background := false, waited := false, live }, id,
    (t.find? id).map fun j => .stopped id j.command)

/-- The tracked jobs in the order of their numbers. -/
def list (t : JobTable) : List JobInfo := t.sweep.jobs.map Job.info

/-- The job with this number, as it is shown. -/
def get? (t : JobTable) (id : JobId) : Option JobInfo := (t.find? id).map Job.info

/-- The job registered last. -/
def current? (t : JobTable) : Option JobId := t.jobs.getLast?.map (·.id)

/-- How many jobs there are. -/
def length (t : JobTable) : Nat := t.jobs.length

/-- The groups that may be collected in the background: the ones that no foreground wait owns. -/
def backgroundGroups (t : JobTable) : List Pid :=
  (t.jobs.filter fun j => !j.waited && j.isTracked).map (·.pgid)

/-- Marks a job as one that a foreground wait owns. -/
def claim? (t : JobTable) (id : JobId) : Option (JobTable × Claim) :=
  (t.find? id).map fun j =>
    (t.modify id fun j => { j with background := false, state := .running, waited := true },
      { group := { pgid := j.pgid, expected := j.live, statusPid := j.members.getLast? }
        command := j.command, background := j.background, state := j.state })

/-- Puts back what a claim changed. -/
def restore (t : JobTable) (id : JobId) (c : Claim) : JobTable :=
  t.modify id fun j => { j with background := c.background, state := c.state, waited := false }

/-- Records that a job goes on in the background. -/
def resume? (t : JobTable) (id : JobId) : Option (JobTable × Notice) :=
  (t.find? id).map fun j =>
    (t.modify id fun j => { j with background := true, state := .running }, .resumed id j.command)

end JobTable

end JobShell
