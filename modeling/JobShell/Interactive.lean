import JobShell.EntryLog
import JobShell.Shell
import JobShell.Text.Cluster

/-!
# The interactive loop

The loop takes lines until one of them asks to leave or there are no more, and runs each. A blank line is passed over and leaves
the status as it was. At a terminal every line is asked for with a prompt. A line that cannot be read ends the loop with an
error.
-/

namespace JobShell

/-- The characters without the last ones that make up so many octets. -/
def dropOctets (n : Nat) : List Char → List Char
  | [] => []
  | c :: cs => if n = 0 then c :: cs else dropOctets (n - c.utf8Size) cs

/-- The size of a cluster in octets, of which only the lowest eight bits are remembered. -/
def clusterSize (cluster : List Char) : Nat := cluster.foldl (fun n c => n + c.utf8Size) 0 % 256

/-- Some characters and the sizes of their clusters, both the last first, after one more cluster: a backspace takes away as much
as the cluster before it had. -/
def applyCluster (taken : List Char × List Nat) (cluster : List Char) : List Char × List Nat :=
  if cluster == ['\x08'] then
    match taken.2 with
    | [] => taken
    | n :: sizes => (dropOctets n taken.1, sizes)
  else (cluster.reverse ++ taken.1, clusterSize cluster :: taken.2)

/-- The characters left when every backspace takes away what a reader takes for the character before it. -/
def applyBackspaces (cs : List Char) : List Char :=
  if cs.contains '\x08' then ((clusters cs).foldl applyCluster ([], [])).1.reverse else cs

/-- A line as it was meant: without its end, and with its backspaces applied. -/
def entered (line : String) : String :=
  let cs := line.toList
  let cs := match cs.reverse with
    | '\n' :: '\r' :: rest => rest.reverse
    | '\n' :: rest => rest.reverse
    | _ => cs
  String.ofList (applyBackspaces cs)

/-- The prompt: the user, the host and the directory, each in its colour. -/
def promptText (user host directory : String) : String :=
  "\x1b[32m" ++ user ++ "\x1b[0m@\x1b[34m" ++ host ++ "\x1b[0m:\x1b[33m" ++ directory ++ "\x1b[0m$ "

/-- The code with which the shell ends for a status: the status where it fits into eight bits, else 1. -/
def exitCode (status : Int) : Nat := if 0 ≤ status ∧ status ≤ 255 then status.toNat else 1

/-- What asking for a line brings: a line, why none can be read, or the end of the input. -/
inductive Entry where
  | line (text : String)
  | unreadable (reason : String)
  | ended
  deriving DecidableEq, Repr

namespace Act

variable {σ : Type}

/-- Sets up a shell: its signals and its group where it is interactive, its hold on the terminal, and the collector. -/
def start (S : System σ) (c : Settings) : Act σ (Except StartError Unit) := do
  let begun ← if c.interactive then ask S.beginInteractive else pure (.ok ())
  match begun with
  | .error e => return .error e
  | .ok () =>
    if c.jobControl then let _ ← ask S.reclaimTerminal
    modify fun s => { s with printsNotices := true }
    startCollector S (c.collectorPause * 1000)
    return .ok ()

/-- Runs a line, unless it is blank. -/
def processLine (S : System σ) (c : Settings) (line : String) : Act σ Int := do
  if isBlankLine line then return (← get).lastStatus
  let status ← runLine S c line
  serveCollector S
  return status

/-- The prompt of this moment. -/
def prompt (S : System σ) : Act σ String := do
  let user := ((← get).environment.get? "USER").getD (← look S.accountName)
  let host ← look S.hostName
  let directory := ((← look S.workingDirectory).toOption).getD "?"
  return promptText user host directory

/-- Asks for one line; an interruption lets the collector have its turn, at most so many times. -/
def nextEntry (S : System σ) : Nat → Act σ Entry
  | 0 => pure .ended
  | patience + 1 => do
    match ← ask S.readLine with
    | .line text => return .line (entered text)
    | .unreadable => return .unreadable "stream did not contain valid UTF-8"
    | .failed cause => return .unreadable cause.message
    | .ended => return .ended
    | .interrupted =>
      serveCollector S
      nextEntry S patience

/-- Takes lines and runs them until one asks to leave or there are no more, at most so many; gives the lines entered. -/
def converse (S : System σ) (c : Settings) : Nat → Act σ (List String)
  | 0 => pure []
  | patience + 1 => do
    if (← look S.promptsForLines) then write S .out (← prompt S)
    match ← nextEntry S S.patience with
    | .ended =>
      write S .out "\n"
      return []
    | .unreadable reason =>
      write S .err ("Error: " ++ reason ++ "\n")
      return []
    | .line line =>
      let _ ← processLine S c line
      if (← get).exiting then return [line]
      return line :: (← converse S c patience)

/-- The loop from its first line to its last, with the log of entered lines kept. Gives the exit code. -/
def interact (S : System σ) (c : Settings) : Act σ Nat := do
  let directory := EntryLog.directory (← get).environment (← look S.accountHome)
  let log := ((← look (S.readText (directory ++ "/" ++ EntryLog.file))).map EntryLog.ofText).getD {}
  let lines ← converse S c S.patience
  let log := (lines.filter fun l => !isBlankLine l).foldl EntryLog.enter log
  if log.changed then tell (S.saveText directory EntryLog.file log.text)
  stopCollector S
  return exitCode (← get).lastStatus

end Act

end JobShell
