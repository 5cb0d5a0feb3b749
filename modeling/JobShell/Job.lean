import JobShell.Signal

/-!
# Jobs as a reader sees them

A job is a pipeline that the shell keeps track of: one in the background, or one that stopped. Here is what is said about it:
its state, how it ended, the line that lists it, and the notices that tell of its life.
-/

namespace JobShell

/-- The id of a process or of a process group. -/
abbrev Pid := Int

/-- The id of a job: jobs are numbered from one. -/
abbrev JobId := Nat

/-- How a process ended. -/
inductive ExitStatus where
  | exited (code : Int)
  | signaled (signal : Int)
  | unknown
  deriving DecidableEq, Repr

/-- The status that a shell reports: the exit code, or 128 and the number of the signal; 0 where it is not known. -/
def ExitStatus.code : ExitStatus → Int
  | .exited code => code
  | .signaled signal => 128 + signal
  | .unknown => 0

/-- What the processes of a job are doing. -/
inductive JobState where
  | running | stopped | done
  deriving DecidableEq, Repr

/-- The word for a state. -/
def JobState.text : JobState → String
  | .running => "Running"
  | .stopped => "Stopped"
  | .done => "Done"

/-- What is shown of a job. -/
structure JobInfo where
  id : JobId
  pgid : Pid
  command : String
  state : JobState
  background : Bool
  live : Nat
  deriving DecidableEq, Repr

namespace JobInfo

/-- The line that lists a job. -/
def text (j : JobInfo) : String :=
  "[" ++ toString j.id ++ "] " ++ j.state.text ++ " " ++ j.command ++ if j.background then " &" else ""

/-- The job is running. -/
def isRunning (j : JobInfo) : Bool := j.state == .running

end JobInfo

/-- News of a job. -/
inductive Notice where
  | started (id : JobId) (pgid : Pid) (command : String)
  | finished (id : JobId) (command : String) (status : ExitStatus)
  | stopped (id : JobId) (command : String)
  | resumed (id : JobId) (command : String)
  deriving DecidableEq, Repr

namespace Notice

/-- The job that the notice is about. -/
def id : Notice → JobId
  | .started id .. | .finished id .. | .stopped id _ | .resumed id _ => id

/-- The line that brings the notice. -/
def text : Notice → String
  | .started id pgid command => "[" ++ toString id ++ "] " ++ toString pgid ++ " " ++ command
  | .finished id command (.exited _) => "[" ++ toString id ++ "] Done " ++ command
  | .finished id command (.signaled signal) =>
    "[" ++ toString id ++ "] Killed (" ++ toString signal ++ ") " ++ command
  | .finished id command .unknown => "[" ++ toString id ++ "] Finished " ++ command
  | .stopped id command => "[" ++ toString id ++ "]+ Stopped " ++ command
  | .resumed id command => "[" ++ toString id ++ "] " ++ command ++ " &"

end Notice

end JobShell
