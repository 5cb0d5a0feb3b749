import JobShell.Collection

/-!
# Job control

A job can be continued in the foreground, continued in the background, or sent a signal. Each of the three looks the job up,
asks the system, and then records what came of it; an error leaves the table as it was. A foreground wait stands between the
two halves of handing the terminal over, whichever way it ends.
-/

namespace JobShell

/-- Why an operation on a job failed. -/
inductive JobError where
  | notFound (id : JobId)
  | signal (id : JobId) (cause : Errno)
  | wait (cause : Errno)
  deriving DecidableEq, Repr

/-- The text of a job error. -/
def JobError.message : JobError → String
  | .notFound id => "job not found: %" ++ toString id
  | .signal id cause => "%" ++ toString id ++ ": " ++ cause.message
  | .wait cause => "wait failed: " ++ cause.message

/-- The signals after which a stopped job is continued, so that it can act on them. -/
def Signal.endsJob (s : Signal) : Bool :=
  s = .term || s = .hup || s = .int || s = .quit

namespace Act

variable {σ : Type}

/-- Waits for a group from a given progress on, taking at most so many results. An interruption lets the collector have its
turn. A wait that has not ended with the last result counts as interrupted. -/
def awaitGroupFrom (S : System σ) (g : GroupWait) : Nat → WaitProgress → Act σ (Except Errno ForegroundOutcome)
  | 0, _ => pure (.error .interrupted)
  | patience + 1, p => do
    if g.isComplete p then return .ok (.finished p.status)
    let result ← ask (S.await g.pgid)
    if WaitResult.isInterrupted result then serveCollector S
    match g.observe p result with
    | .proceed p => awaitGroupFrom S g patience p
    | .settled r => return r

/-- Waits until all of a group is collected or one process of it stops. -/
def awaitGroup (S : System σ) (g : GroupWait) : Act σ (Except Errno ForegroundOutcome) :=
  awaitGroupFrom S g S.patience {}

/-- Puts back what a claim changed. -/
def restoreJob (id : JobId) (c : Claim) : Act σ Unit :=
  modify fun s => { s with table := s.table.restore id c }

/-- Continues a job in the foreground and waits for it to stop or to end. -/
def bringToForeground (S : System σ) (id : JobId) : Act σ (Except JobError ForegroundOutcome) := do
  match (← get).table.claim? id with
  | none => return .error (.notFound id)
  | some (table, claim) =>
    modify fun s => { s with table }
    let pgid := claim.group.pgid
    giveTerminal S pgid
    match ← ask (S.signalGroup pgid .cont) with
    | .error cause =>
      reclaimTerminal S
      restoreJob id claim
      return .error (.signal id cause)
    | .ok () =>
      let result ← awaitGroup S claim.group
      reclaimTerminal S
      match result with
      | .ok (.finished status) =>
        markFinished S pgid status
        return .ok (.finished status)
      | .ok (.stopped signal live) =>
        let _ ← trackStopped S pgid claim.command live []
        return .ok (.stopped signal live)
      | .error cause =>
        restoreJob id claim
        return .error (.wait cause)

/-- Continues a job in the background. -/
def sendToBackground (S : System σ) (id : JobId) : Act σ (Except JobError Unit) := do
  match (← get).table.find? id with
  | none => return .error (.notFound id)
  | some job =>
    match ← ask (S.signalGroup job.pgid .cont) with
    | .error cause => return .error (.signal id cause)
    | .ok () =>
      match (← get).table.resume? id with
      | none => return .error (.notFound id)
      | some (table, notice) =>
        modify fun s => { s with table }
        announce S notice
        return .ok ()

/-- Sends a signal to every process of a job. The job does not end here but when its processes are collected. -/
def killJob (S : System σ) (id : JobId) (signal : Signal) : Act σ (Except JobError Unit) := do
  match (← get).table.find? id with
  | none => return .error (.notFound id)
  | some job =>
    match ← ask (S.signalGroup job.pgid signal) with
    | .error cause => return .error (.signal id cause)
    | .ok () =>
      if job.state = .stopped && signal.endsJob then
        let _ ← ask (S.signalGroup job.pgid .cont)
      return .ok ()

end Act

end JobShell
