import JobShell.Errno
import JobShell.Job

/-!
# Waiting for a group

A wait on a process group brings one status change at a time. `GroupWait.observe` says what a foreground wait makes of each:
an exit is counted, a stop ends the wait at once, a group without children ends it too, and an interruption or any other
change is passed over. The pipeline's status is the one of its last stage.
-/

namespace JobShell

/-- A status change of a child. -/
inductive WaitStatus where
  | exited (pid : Pid) (code : Int)
  | signaled (pid : Pid) (signal : Signal) (core : Bool)
  | stopped (pid : Pid) (signal : Signal)
  | continued (pid : Pid)
  | traceEvent (pid : Pid)
  | traceCall (pid : Pid)
  | stillAlive
  deriving DecidableEq, Repr

namespace WaitStatus

/-- The process whose status changed. -/
def pid? : WaitStatus → Option Pid
  | .exited pid _ | .signaled pid .. | .stopped pid _ | .continued pid | .traceEvent pid | .traceCall pid => some pid
  | .stillAlive => none

/-- How the process ended, if it did. -/
def exit? : WaitStatus → Option ExitStatus
  | .exited _ code => some (.exited code)
  | .signaled _ signal _ => some (.signaled signal.number)
  | _ => none

end WaitStatus

/-- What one wait brings: a status change or an error. -/
abbrev WaitResult := Except Errno WaitStatus

/-- The wait was interrupted. -/
def WaitResult.isInterrupted : WaitResult → Bool
  | .error e => e = .interrupted
  | .ok _ => false

/-- A group to wait for in the foreground: how many of its processes are still to be collected, and the one whose status is
the pipeline's; without one, the last to be collected gives it. -/
structure GroupWait where
  pgid : Pid
  expected : Nat
  statusPid : Option Pid
  deriving DecidableEq, Repr

/-- How a foreground wait ended. -/
inductive ForegroundOutcome where
  | finished (status : ExitStatus)
  | stopped (signal : Signal) (live : Nat)
  deriving DecidableEq, Repr

/-- The status that a shell reports for the outcome. -/
def ForegroundOutcome.code : ForegroundOutcome → Int
  | .finished status => status.code
  | .stopped signal _ => 128 + signal.number

/-- How far a foreground wait has come: the processes collected and the status found. -/
structure WaitProgress where
  collected : Nat := 0
  status : ExitStatus := .unknown
  deriving DecidableEq, Repr

/-- What becomes of a wait with one more result. -/
inductive WaitStep where
  | proceed (progress : WaitProgress)
  | settled (result : Except Errno ForegroundOutcome)

namespace GroupWait

/-- The wait has collected all it expects. -/
def isComplete (g : GroupWait) (p : WaitProgress) : Bool := g.expected ≤ p.collected

/-- One exit is counted, and its status kept if it is the pipeline's. -/
def collect (g : GroupWait) (p : WaitProgress) (pid : Option Pid) (exit : ExitStatus) : WaitProgress :=
  { collected := p.collected + 1
    status := if g.statusPid = none ∨ pid = g.statusPid then exit else p.status }

/-- What the wait makes of a result. -/
def observe (g : GroupWait) (p : WaitProgress) : WaitResult → WaitStep
  | .error e =>
    if e = .interrupted then .proceed p
    else if e = .noChild then .settled (.ok (.finished p.status))
    else .settled (.error e)
  | .ok (.stopped _ signal) => .settled (.ok (.stopped signal (g.expected - p.collected)))
  | .ok status =>
    match status.exit? with
    | some exit => .proceed (g.collect p status.pid? exit)
    | none => .proceed p

end GroupWait

end JobShell
