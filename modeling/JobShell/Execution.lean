import JobShell.Builtin
import JobShell.Launch
import JobShell.Pipeline.Reading

/-!
# Running a pipeline

A pipeline of one stage that names a builtin runs in the shell itself, whether it is marked for the background or not. Any
other is launched: in the background it becomes a job at once; in the foreground the shell waits for it, and it becomes a job
only if it stops. The status of a pipeline is remembered, except for an empty one, which does nothing at all.
-/

namespace JobShell

/-- What a shell brings to every pipeline: the name it reports errors under, and its builtins. -/
structure Executor where
  name : String := "chirsh"
  builtins : List Builtin := Builtin.all
  deriving DecidableEq, Repr

namespace Act

variable {σ : Type}

/-- Reports an error under the name of the shell. -/
def report (S : System σ) (x : Executor) (e : ExecError) : Act σ Unit :=
  write S .err (x.name ++ ": " ++ e.message ++ "\n")

/-- Runs a builtin and writes what it says. -/
def runInShell (S : System σ) (x : Executor) (stage : Stage) : Act σ Int := do
  let result ← runNamed S x.builtins stage
  write S .out result.out
  write S .err result.errLine
  return result.code

/-- Waits for a pipeline just launched, with the terminal in its hands. -/
def awaitForeground (S : System σ) (l : Launched) : Act σ (Except Errno ForegroundOutcome) := do
  giveTerminal S l.pgid
  let result ← awaitGroup S { pgid := l.pgid, expected := l.pids.length, statusPid := l.pids.getLast? }
  reclaimTerminal S
  return result

/-- Launches a pipeline, which is shown as `command`, and sees it through or registers it. -/
def runProcesses (S : System σ) (x : Executor) (p : Pipeline) (command : String) : Act σ Int := do
  match ← launch S x.name p with
  | .error e =>
    report S x e
    return 1
  | .ok l =>
    if p.background then
      let (table, id) := (← get).table.addPipeline l.pgid command true l.pids
      modify fun s => { s with table }
      announce S (.started id l.pgid command)
      return 0
    else
      match ← awaitForeground S l with
      | .ok (.finished status) =>
        markFinished S l.pgid status
        return status.code
      | .ok (.stopped signal live) =>
        let _ ← trackStopped S l.pgid command live l.pids
        return (ForegroundOutcome.stopped signal live).code
      | .error cause =>
        report S x (.wait cause)
        return 1

/-- Runs a pipeline that was read from this line. -/
def execute (S : System σ) (x : Executor) (p : Pipeline) (line : String) : Act σ Int := do
  if p.isEmpty then return 0
  let inShell := p.single?.filter fun s => (Builtin.find? x.builtins s.program).isSome
  let status ← match inShell with
    | some stage => runInShell S x stage
    | none => runProcesses S x p (p.commandText line)
  modify fun s => { s with lastStatus := status }
  return status

end Act

end JobShell
