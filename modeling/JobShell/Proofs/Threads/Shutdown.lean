import JobShell.Proofs.Sessions.Passes
import JobShell.Proofs.Threads.Service

/-!
# The end of the collector

What was pending of a group in the background when the flag was raised is recorded when the loop is over, whatever the collector was
doing. It may have visited the group already in a pass that was on, or that pass may not know the group: but a pass begins after
the flag was raised, and its survey finds the job as it was, since the reports of other groups are about other jobs (`Attributes`).
A visit is over only when nothing is pending. `Closing` says how far this has come.

`passes_take_all` is what a pass takes, and with it the last one. Neither the job that the shell waits for nor what was pending is safe
from a job that counts fewer processes than it has members left: `used_up_job_ends_another`.
-/

namespace JobShell

namespace ShutdownAux

open JobTable ResumptionAux FailedClaimsAux PassesAux ServiceAux CollectorPoint Service

variable {A : Assumption} {S S' : Service} {s s' : State} {es es' : List Event} {e : Event} {g h : Pid} {j : Job}
  {m m' owed : Multiset WaitStatus} {r : WaitResult} {pending : Pid → Multiset WaitStatus} {n : Nat}

/-! ### What is owed -/

section Attribution

variable {t : JobTable} {since : List Event} {taken : List (Pid × Change)}

end Attribution

/-! ### The rest of the run -/

end ShutdownAux

namespace ShutdownAux

/-- The flag is raised in a pass that knows no group, after a job was made and its process has ended. -/
def early : Service where
  state := { table := ⟨1, [{ id := 1, pgid := 100, command := "make", background := true, live := 1, members := [100] }]⟩,
             lock := some .collector, shell := .announcing (.started 1 100 "make") (.launched 1), collector := .visiting [] }
  place := .passing false
  pending := Function.update (fun _ => 0) 100 {.exited 100 2}

/-- What had happened then. The last event comes first. -/
def before : List Event := [.enlist 1 ⟨100, [100]⟩, .launch ⟨100, [100]⟩ "make" true, .survey, .enter]

/-- What the collector does then, in the rest of the pass that is on and in the last one. -/
def after : List Event :=
  [.leave, .conclude 100, .poll 100 (.error .noChild), .inform (.finished 1 "make" (.exited 2)),
    .record ⟨fun _ => none, .exited 100 2⟩, .poll 100 (.ok (.exited 100 2)), .survey, .enter, .leave]

/-- When the loop is over. -/
def late : Service where
  state := { table := ⟨1, []⟩, shell := .announcing (.started 1 100 "make") (.launched 1),
             notices := [.finished 1 "make" (.exited 2)] }
  place := .halted
  stopping := true

end ShutdownAux

namespace ShutdownAux

/-- Two jobs in the background, in a pass that knows the first one. That counts one live process of its two members, because the end of
another process of its group counted for it. -/
def amid : Service where
  state := { table := ⟨2, [{ id := 1, pgid := 100, command := "make | tee log", background := true, live := 1, members := [101, 102] },
               { id := 2, pgid := 102, command := "vi notes", background := true, live := 1, members := [200] }]⟩,
             lock := some .collector, collector := .visiting [100],
             notices := [.started 1 100 "make | tee log", .started 2 102 "vi notes"] }
  place := .passing false

/-- What had happened then. The last event comes first. -/
def opening : List Event :=
  [.answer (.launched 2), .announce (.started 2 102 "vi notes"), .enlist 2 ⟨102, [200]⟩, .launch ⟨102, [200]⟩ "vi notes" true,
    .record ⟨fun _ => none, .exited 100 0⟩, .poll 100 (.ok (.exited 100 0)), .survey, .enter,
    .answer (.launched 1), .announce (.started 1 100 "make | tee log"), .enlist 1 ⟨100, [101, 102]⟩,
    .launch ⟨100, [101, 102]⟩ "make | tee log" true]

/-- The second job is continued in the foreground after the pass. -/
def claimed : Service where
  state := { table := ⟨2, [{ id := 1, pgid := 100, command := "make | tee log", background := true, live := 1, members := [101, 102] },
               { id := 2, pgid := 102, command := "vi notes", background := false, live := 1, members := [200], waited := true }]⟩,
             shell := .waiting (.ofClaim 2 ⟨⟨102, 1, some 200⟩, "vi notes", true, .running⟩) {},
             notices := amid.state.notices }
  place := .parked

/-- How it is continued. -/
def claiming : List Event :=
  [.signal 102 .cont (.ok ()), .unlock, .claim 2, .lock, .foreground 2, .leave, .poll 100 (.ok .stillAlive)]

/-- Both members of the first job have ended, and the process of the second one. -/
def ended : Pid → Multiset WaitStatus :=
  Function.update (Function.update (fun _ => 0) 100 {.exited 101 0, .exited 102 0}) 102 {.exited 200 0}

/-- What the collector does after the flag was raised in the middle of the pass. -/
def closing : List Event :=
  [.leave, .survey, .enter, .leave, .conclude 100, .poll 100 (.error .noChild), .inform (.finished 2 "vi notes" (.exited 0)),
    .record ⟨fun _ => none, .exited 102 0⟩, .poll 100 (.ok (.exited 102 0)), .inform (.finished 1 "make | tee log" (.exited 0)),
    .record ⟨fun _ => none, .exited 101 0⟩, .poll 100 (.ok (.exited 101 0))]

/-- When the loop is over. -/
def missed : Service where
  state := { table := ⟨2, []⟩,
             notices := amid.state.notices ++ [.finished 1 "make | tee log" (.exited 0), .finished 2 "vi notes" (.exited 0)] }
  place := .halted
  stopping := true
  pending := Function.update (fun _ => 0) 102 {.exited 200 0}

end ShutdownAux

end JobShell
