import JobShell.Machine.Settling
import JobShell.System
import JobShell.Text.Octets

/-!
# The shell's requests

The answers of the machine to the shell. A wait takes the children of the shell in a group in the order in which they were
made, and reports the first one that ended or stopped; while there is none, the machine runs and time goes on, until the shell
is to be woken. A shell that was killed gets nothing done any more. Its texts become octets on the way into the machine.
-/

namespace JobShell.Machine

/-- A child of the shell in a group. -/
def isMember (m : Machine) (group : Pid) (p : Process) : Bool := p.parent == m.shell.pid && p.group == group

/-- What is to be reported of a child; that it goes on, only if asked for. -/
def report? (continued : Bool) (p : Process) : Option WaitResult :=
  match p.life, p.news with
  | .ended (.exited n), _ => some (.ok (.exited p.pid n))
  | .ended (.killed n), _ => some (match Signal.ofNumber? n with
    | some s => .ok (.signaled p.pid s false)
    | none => .error .invalid)
  | _, some (.stopped n) => some (match Signal.ofNumber? n with
    | some s => .ok (.stopped p.pid s)
    | none => .error .invalid)
  | _, some .continued => if continued then some (.ok (.continued p.pid)) else none
  | _, none => none

/-- The child of the shell with this id. -/
def isChild (m : Machine) (pid : Pid) (p : Process) : Bool := p.parent == m.shell.pid && p.pid == pid

/-- Reports the first of the wanted processes of which there is something to report, and takes note that it was. -/
def collect? (m : Machine) (wanted : Process → Bool) (report? : Process → Option WaitResult) : Option (WaitResult × Machine) :=
  (m.processes.filter wanted).findSome? fun p =>
    (report? p).map fun r => (r, if p.isAlive then m.modify p.pid fun q => { q with news := none } else m.forget p.pid)

/-- Waits for one of the wanted processes, through at most so many moments. -/
def awaitFrom (wanted : Machine → Process → Bool) (report? : Process → Option WaitResult) : Nat → Machine → WaitResult × Machine
  | 0, m => (.error .interrupted, m)
  | n + 1, m =>
    let (m, rested) := m.settle
    if !m.shell.isAlive then (.error .noChild, m)
    else match m.collect? (wanted m) report? with
      | some r => r
      | none =>
        if !m.processes.any (wanted m) then (.error .noChild, m)
        else if m.alarmDue then (.error .interrupted, m)
        else match m.nextTime? rested with
          | some t => awaitFrom wanted report? n { m with clock := max m.clock t }
          | none => (.error .interrupted, m)

/-- How many moments a wait may take. -/
def waitLimit : Nat := 20000

/-- Reports one of the wanted processes at once if it can, before anything else happens, and waits for one otherwise. -/
def awaitOne (wanted : Machine → Process → Bool) (report? : Process → Option WaitResult) (m : Machine) : WaitResult × Machine :=
  match m.collect? (wanted m) report? with
  | some r => r
  | none => awaitFrom wanted report? waitLimit m

/-- Waits for a child of a group to end or to stop. -/
def await (group : Pid) : Machine → WaitResult × Machine := awaitOne (fun m => m.isMember group) (report? false)

/-- Waits for a child to end. -/
def awaitProcess (pid : Pid) : Machine → WaitResult × Machine :=
  awaitOne (fun m => m.isChild pid) fun p => if p.isAlive then none else report? false p

/-- Asks for a child of a group that changed, without waiting. -/
def poll (group : Pid) (m : Machine) : WaitResult × Machine :=
  let m := m.settle.1
  if !m.shell.isAlive then (.error .noChild, m)
  else match m.collect? (m.isMember group) (report? true) with
    | some r => r
    | none => (if m.processes.any (m.isMember group) then .ok .stillAlive else .error .noChild, m)

/-- The group of a process. -/
def groupOf (pid : Pid) (m : Machine) : Option Pid :=
  if pid = m.shell.pid then some m.shell.group else (m.process? pid).map (·.group)

/-- Makes a pipe for the shell. -/
def makePipe (m : Machine) : Except Errno (Descriptor × Descriptor) × Machine :=
  let calls := m.pipeCalls + 1
  let m := { m with pipeCalls := calls }
  if m.pipeFailsAt = some calls then (.error .tooManyFiles, m)
  else
    let (m, pipe) := m.addPipe []
    let r := m.shell.files.lowestFree
    let files := m.shell.files.put r (.pipeRead pipe)
    let w := files.lowestFree
    (.ok (r, w), m.modifyShell fun s => { s with files := files.put w (.pipeWrite pipe) })

/-- Closes a descriptor of the shell. -/
def closeDescriptor (d : Descriptor) (m : Machine) : Machine := m.modifyShell fun s => { s with files := s.files.close d }

/-- Which rights the files do not get that the shell's children make. -/
def shellMask : Nat := 0o022

/-- Makes a child of the shell. That takes as long as a step of every other process. -/
def fork (plan : ChildPlan) (m : Machine) : Except Errno Pid × Machine :=
  let m := m.round.1
  if !m.shell.isAlive then (.error .noProcess, m)
  else
    let pid := m.lastPid + 1
    let child : Process :=
      { pid, parent := m.shell.pid, group := m.shell.group, session := m.shell.session, program := .startUp plan.steps
        files := m.shell.files, directory := m.shell.directory, dispositions := m.shell.signals.dispositions, mask := shellMask }
    (.ok pid, { m with lastPid := pid, processes := m.processes ++ [child] })

/-- Changes the shell's directory. -/
def changeDirectory (path : String) (m : Machine) : Except FileError Unit × Machine :=
  match m.tree.directory m.shell.directory (Octets.ofText path) with
  | .ok directory => (.ok (), m.modifyShell fun s => { s with directory })
  | .error e => (.error e, m)

/-- The shell's input is a terminal. -/
def promptsForLines (m : Machine) : Bool := m.shell.files.get? 0 == some (.device .terminal)

/-- How much the shell reads of its input at once. -/
def inputBlock : Nat := 8192

/-- The line that these octets are. -/
def lineOf (cs : List Char) : LineRead :=
  match Octets.text? (String.ofList cs) with
  | some text => .line text
  | none => .unreadable

/-- Reads a line of the shell's input, through at most so many moments. What is read beyond the line is kept for the next one;
the last line may have no end. -/
def readLineFrom : Nat → Machine → LineRead × Machine
  | 0, m => (.interrupted, m)
  | n + 1, m =>
    if m.shell.unread.contains '\n' then
      let (line, rest) := cutLine m.shell.unread
      (lineOf line, m.modifyShell fun s => { s with unread := rest })
    else
      let (m, rested) := m.settle
      if !m.shell.isAlive then (.ended, m)
      else match m.take m.shell.session m.shell.group inputBlock (m.shell.files.get? 0) with
        | (m, .text (c :: cs)) => readLineFrom n (m.modifyShell fun s => { s with unread := s.unread ++ c :: cs })
        | (m, .blocked) =>
          if m.alarmDue then (.interrupted, m)
          else match m.nextTime? rested with
            | some t => readLineFrom n { m with clock := max m.clock t }
            | none => (.ended, m)
        | (m, .text []) =>
          if m.shell.unread.isEmpty then (.ended, m)
          else (lineOf m.shell.unread, m.modifyShell fun s => { s with unread := [] })
        | (m, .failed e) => (.failed e, m)
        | (m, .stopsReader) => (.failed .inputOutput, m)

/-- Writes what the shell says. -/
def writeShell (stream : Stream) (text : String) (m : Machine) : Machine :=
  if m.shell.isAlive then
    m.shellWrites (match stream with
      | .out => 1
      | .err => 2) (Octets.ofText text)
  else m

/-- The rights of the directories that the shell makes. -/
def directoryMode : Nat := 0o755

/-- The rights of the files that the shell makes. -/
def fileMode : Nat := 0o644

/-- Writes a file into a directory, which is made where it is missing. -/
def saveText (directory file text : String) (m : Machine) : Machine :=
  let directory := Octets.ofText directory
  let saved : Except FileError FileSystem := do
    let tree ← m.tree.makeDirectories m.shell.directory directory directoryMode
    tree.writeFile m.shell.directory (directory ++ "/" ++ Octets.ofText file) fileMode (Octets.ofText text)
  match saved with
  | .ok tree => if m.shell.isAlive then { m with tree } else m
  | .error _ => m

/-- The machine as a system for a shell. -/
def system : System Machine where
  patience := 1000000
  groupOf := groupOf
  signalGroup group signal m := if group < 0 then (.error .invalid, m) else m.signalGroup group signal.number
  signalProcess pid signal m := m.signalOne pid signal.number
  await := await
  awaitProcess := awaitProcess
  poll := poll
  terminalAttached m := m.terminal.isSome
  giveTerminal := giveTerminal
  reclaimTerminal m := m.giveTerminal m.shell.group
  makePipe := makePipe
  closeDescriptor := closeDescriptor
  fork := fork
  placeInGroup pid group m := m.modify pid fun p => if p.isAlive then { p with group } else p
  workingDirectory m := (m.tree.pathOf m.shell.directory).map Octets.text
  changeDirectory := changeDirectory
  write := writeShell
  promptsForLines := promptsForLines
  readLine := readLineFrom waitLimit
  now m := m.clock
  wakeAt alarm m := { m with alarm }
  beginInteractive m :=
    (.ok (), m.modifyShell fun s => { s with group := s.pid, signals := s.signals.install })
  hostName _ := "localhost"
  accountName _ := "root"
  accountHome _ := "/root"
  readText path m := ((m.tree.text m.shell.directory (Octets.ofText path)).toOption).bind Octets.text?
  saveText := saveText

end JobShell.Machine
