import JobShell.Pipes

/-!
# Launching a pipeline

A launch is all or nothing. Nothing is made for an empty pipeline or for an argument that no program can be given; then all
pipes are made, and only then the children, one for each stage, in order. The first child leads the group and the others join
it. The shell lets go of a pipe as soon as both stages it joins are under way, so that a pipe ends when its writer does.
-/

namespace JobShell

/-- Why a pipeline could not be launched, or its wait failed. -/
inductive ExecError where
  | empty
  | invalidArgument (program : String)
  | pipe (cause : Errno)
  | fork (cause : Errno)
  | wait (cause : Errno)
  deriving DecidableEq, Repr

/-- The text of an execution error. -/
def ExecError.message : ExecError → String
  | .empty => "empty pipeline"
  | .invalidArgument program => program ++ ": argument contains a NUL byte"
  | .pipe cause => "cannot create pipe: " ++ cause.message
  | .fork cause => "cannot fork: " ++ cause.message
  | .wait cause => "wait failed: " ++ cause.message

/-- The processes of a launched pipeline: their group, which is the first one's id, and all of them in stage order. -/
structure Launched where
  pgid : Pid
  pids : List Pid
  deriving DecidableEq, Repr

/-- The text holds the character NUL, which no argument and no variable can hold. -/
def containsNul (s : String) : Bool := s.toList.contains '\x00'

/-- The first stage with an argument that no program can be given. -/
def Pipeline.unusable? (p : Pipeline) : Option Stage :=
  p.stages.find? fun s => s.arguments.any containsNul

namespace Act

variable {σ : Type}

/-- Waits for a process to end, again when it is interrupted, at most so many times. -/
def awaitProcess (S : System σ) (pid : Pid) : Nat → Act σ Unit
  | 0 => pure ()
  | patience + 1 => do
    if WaitResult.isInterrupted (← ask (S.awaitProcess pid)) then awaitProcess S pid patience

/-- Waits for each of these processes to end, in order. -/
def awaitProcesses (S : System σ) : List Pid → Act σ Unit
  | [] => pure ()
  | pid :: rest => do
    awaitProcess S pid S.patience
    awaitProcesses S rest

/-- Kills and collects the children of a launch that could not be completed. -/
def abandon (S : System σ) : List Pid → Act σ Unit
  | [] => pure ()
  | leader :: rest => do
    let _ ← ask (S.signalGroup leader .kill)
    awaitProcesses S (leader :: rest)

/-- Makes the children of the stages from the one at `index` on. `made` are the children before it. -/
def forkStages (S : System σ) (shell : String) (foreground claimsTerminal : Bool) :
    List Stage → (index : Nat) → PipeSet → (made : List Pid) → Act σ (Except ExecError (List Pid))
  | [], _, pipes, made => do
    closeAll S pipes.openDescriptors
    return .ok made
  | stage :: rest, index, pipes, made => do
    let plan : ChildPlan :=
      { shell, stage, environment := (← get).environment, group := made.head?, foreground, claimsTerminal
        input := pipes.inputOf index, output := pipes.outputOf index, close := pipes.openDescriptors }
    match ← ask (S.fork plan) with
    | .error cause =>
      abandon S made
      closeAll S pipes.openDescriptors
      return .error (.fork cause)
    | .ok child =>
      tell (S.placeInGroup child (made.head?.getD child))
      let pipes ← match index with
        | 0 => pure pipes
        | i + 1 => releasePipe S pipes i
      forkStages S shell foreground claimsTerminal rest (index + 1) pipes (made ++ [child])

/-- Launches a pipeline for the shell of this name. -/
def launch (S : System σ) (shell : String) (p : Pipeline) : Act σ (Except ExecError Launched) := do
  if p.isEmpty then return .error .empty
  match p.unusable? with
  | some stage => return .error (.invalidArgument stage.program)
  | none =>
    match ← openPipes S (p.stages.length - 1) with
    | .error cause => return .error (.pipe cause)
    | .ok pipes =>
      let foreground := !p.background
      let claimsTerminal := foreground && (← look S.terminalAttached)
      match ← forkStages S shell foreground claimsTerminal p.stages 0 pipes [] with
      | .error e => return .error e
      | .ok [] => return .error .empty
      | .ok (leader :: rest) => return .ok { pgid := leader, pids := leader :: rest }

end Act

end JobShell
