import JobShell.Session

/-!
# Collecting status changes

A pass of the collector visits every group that no foreground wait owns, in the order of the jobs as they stand when the pass
begins, and takes all status changes there are. A group without children is finished with an unknown status. The collector
makes its passes at fixed times; while the shell is blocked, the system wakes it for them.
-/

namespace JobShell.Act

variable {σ : Type}

/-- Takes the status changes of one group, at most so many results, and gives how many there were. -/
def collectGroup (S : System σ) (pgid : Pid) : Nat → Act σ Nat
  | 0 => pure 0
  | patience + 1 => do
    match ← ask (S.poll pgid) with
    | .ok .stillAlive => pure 0
    | .ok status =>
      childStatus S status
      return (← collectGroup S pgid patience) + 1
    | .error e =>
      if e = .interrupted then collectGroup S pgid patience
      else if e = .noChild then
        markFinished S pgid .unknown
        pure 0
      else pure 0

/-- Takes the status changes of each of the groups, in order. -/
def collectGroups (S : System σ) : List Pid → Act σ Nat
  | [] => pure 0
  | pgid :: rest => do
    let n ← collectGroup S pgid S.patience
    return n + (← collectGroups S rest)

/-- One pass over the groups that no foreground wait owns; gives how many status changes there were. -/
def collectPass (S : System σ) : Act σ Nat := do
  collectGroups S (← get).table.backgroundGroups

/-- The shortest time between two passes. -/
def shortestInterval : Nat := 1000

/-- Starts the collector: its first pass is now, the next one after the interval. -/
def startCollector (S : System σ) (interval : Nat) : Act σ Unit := do
  let _ ← collectPass S
  let interval := max interval shortestInterval
  let due := (← look S.now) + interval
  modify fun s => { s with collector := some { interval, due } }
  tell (S.wakeAt (some due))

/-- Makes the pass that is due, if one is. -/
def serveCollector (S : System σ) : Act σ Unit := do
  match (← get).collector with
  | none => pure ()
  | some c =>
    let now ← look S.now
    if c.due ≤ now then
      let _ ← collectPass S
      let due := now + c.interval
      modify fun s => { s with collector := some { c with due } }
      tell (S.wakeAt (some due))

/-- Stops the collector after a last pass. -/
def stopCollector (S : System σ) : Act σ Unit := do
  let _ ← collectPass S
  modify fun s => { s with collector := none }
  tell (S.wakeAt none)

end JobShell.Act
