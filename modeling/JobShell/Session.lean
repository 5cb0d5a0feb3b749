import JobShell.JobTable
import JobShell.System

/-!
# Sessions

A session is one life of the shell: the state of the system under it, the job table, what was asked of the terminal, the
notices given, and what one command line leaves to the next. Everything the shell does is an action on a session.
-/

namespace JobShell

/-- A request to the terminal: to take a group as its foreground, or to take the shell's own again. -/
inductive TerminalEvent where
  | giveTo (pgid : Pid)
  | reclaim
  deriving DecidableEq, Repr

/-- When the collector makes its passes: every `interval`, next at `due`. -/
structure Collector where
  interval : Nat
  due : Nat
  deriving DecidableEq, Repr

/-- A session on a system with states of type `σ`. `terminal` and `notices` hold everything so far, oldest first. -/
structure Session (σ : Type) where
  world : σ
  table : JobTable := {}
  terminal : List TerminalEvent := []
  notices : List Notice := []
  printsNotices : Bool := false
  environment : Environment := []
  history : List String := []
  lastStatus : Int := 0
  exiting : Bool := false
  collector : Option Collector := none

/-- Something the shell does. -/
abbrev Act (σ : Type) := StateM (Session σ)

namespace Act

variable {σ : Type}

/-- Asks the system. -/
def ask (request : σ → α × σ) : Act σ α := fun s =>
  match request s.world with
  | (a, world) => (a, { s with world })

/-- Looks at the state of the system. -/
def look (view : σ → α) : Act σ α := fun s => (view s.world, s)

/-- Changes the state of the system. -/
def tell (change : σ → σ) : Act σ Unit := fun s => ((), { s with world := change s.world })

/-- Writes a text to a stream. -/
def write (S : System σ) (stream : Stream) (text : String) : Act σ Unit :=
  if text.isEmpty then pure () else tell (S.write stream text)

/-- Gives a notice, which is printed where the session prints notices. -/
def announce (S : System σ) (n : Notice) : Act σ Unit := do
  modify fun s => { s with notices := s.notices ++ [n] }
  if (← get).printsNotices then write S .out (n.text ++ "\n")

/-- Makes one change of the job table and gives the notice that is due. -/
def changeTable (S : System σ) (change : JobTable → JobTable × Option Notice) : Act σ Unit := do
  let (table, notice) := change (← get).table
  modify fun s => { s with table }
  match notice with
  | some n => announce S n
  | none => pure ()

/-- Hands the terminal to a group. A failure changes nothing. -/
def giveTerminal (S : System σ) (pgid : Pid) : Act σ Unit := do
  modify fun s => { s with terminal := s.terminal ++ [.giveTo pgid] }
  let _ ← ask (S.giveTerminal pgid)

/-- Takes the terminal back. A failure changes nothing. -/
def reclaimTerminal (S : System σ) : Act σ Unit := do
  modify fun s => { s with terminal := s.terminal ++ [.reclaim] }
  let _ ← ask S.reclaimTerminal

/-- Ends the job of a group. -/
def markFinished (S : System σ) (pgid : Pid) (status : ExitStatus) : Act σ Unit :=
  changeTable S (·.markFinished pgid status)

/-- Accounts for the end of a process. -/
def childExited (S : System σ) (pid : Pid) (status : ExitStatus) : Act σ Unit := do
  let group := (← look (S.groupOf pid)).getD pid
  changeTable S (·.childExited pid group status)

/-- Accounts for a status change. -/
def childStatus (S : System σ) (status : WaitStatus) : Act σ Unit := do
  let groupOf ← look fun world pid => S.groupOf pid world
  changeTable S (·.childStatus groupOf status)

/-- Records a group that stopped in the foreground. -/
def trackStopped (S : System σ) (pgid : Pid) (command : String) (live : Nat) (members : List Pid) : Act σ JobId := do
  let (table, id, notice) := (← get).table.trackStopped pgid command live members
  modify fun s => { s with table }
  match notice with
  | some n => announce S n
  | none => pure ()
  return id

end Act

end JobShell
