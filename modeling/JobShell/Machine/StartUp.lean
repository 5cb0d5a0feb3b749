import JobShell.Machine.Process
import JobShell.Text.Octets

/-!
# How a child of the shell starts

A child joins its group and claims the terminal before it becomes the program of its stage. Other processes see these two steps, and
each is one step of the child; what it does after them concerns the child alone, and is done at once.
-/

namespace JobShell.Machine

/-- The error of a terminal that does not work. -/
def inputOutput : Errno := ⟨5⟩

/-- Makes a group the foreground of the terminal. -/
def giveTerminal (group : Pid) (m : Machine) : Except Errno Unit × Machine :=
  if m.terminalFails then (.error inputOutput, m)
  else (.ok (), { m with terminal := m.terminal.map fun t => { t with foreground := group } })

/-- What a child says and does whose program cannot be run. -/
def cannotRun (shell program : String) (e : FileError) : Program :=
  .fail (Octets.ofText (shell ++ ": " ++ program ++ (if e = .notFound then ": command not found\n" else ": cannot execute\n"))) 127

/-- The stage and the environment as a program gets them. -/
def callOf (stage : Stage) (environment : Environment) : Call where
  name := Octets.ofText stage.program
  arguments := stage.operands.map Octets.ofText
  environment := environment.map fun v => (Octets.ofText v.1, Octets.ofText v.2)

/-- A child takes one step on its way to its program. -/
def takeStep (m : Machine) (pid : Pid) : ChildStep → Machine
  | .joinGroup group => m.modify pid fun p => { p with group := group.getD pid }
  | .claimTerminal =>
    match m.process? pid with
    | some p => (m.giveTerminal p.group).2
    | none => m
  | .resetSignals foreground => m.modify pid fun p => { p with dispositions := p.dispositions.forChild foreground, caught := [] }
  | .duplicate source target =>
    m.modify pid fun p => match p.files.get? source with
      | some c => { p with files := p.files.put target c }
      | none => p
  | .close d => m.modify pid fun p => { p with files := p.files.close d }
  | .execute shell stage environment =>
    let call := callOf stage environment
    m.modify pid fun p => { p with program := .execute call.name true call (cannotRun shell stage.program) }

/-- A child takes the next of its steps, or all that are left where they concern it alone. -/
def takeSteps (m : Machine) (pid : Pid) : List ChildStep → Machine
  | .joinGroup group :: rest => (m.takeStep pid (.joinGroup group)).modify pid fun p => { p with program := .startUp rest }
  | .claimTerminal :: rest => (m.takeStep pid .claimTerminal).modify pid fun p => { p with program := .startUp rest }
  | steps => steps.foldl (fun m s => m.takeStep pid s) (m.modify pid fun p => { p with program := .exit 127 })

end JobShell.Machine
