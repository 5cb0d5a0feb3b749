import JobShell.Machine.Terminal
import JobShell.Machine.Tool

/-!
# Processes of the machine

A process has a program still to run, open descriptors, a directory, and what it does about signals. A process that ended stays
until its parent has asked for it. The machine holds all processes in the order in which they were made, the pipes, the files
and the clock, and beside them the process of the shell, whose program is not the machine's concern.
-/

namespace JobShell.Machine

/-- What a process is doing. -/
inductive Life where
  | running
  | stopped (signal : Nat)
  | ended (how : ChildEnd)
  deriving DecidableEq, Repr

/-- A change that the parent has not been told of yet: the process stopped, or it goes on. -/
inductive News where
  | stopped (signal : Nat)
  | continued
  deriving DecidableEq, Repr

/-- The open descriptors of a process. -/
abbrev OpenFiles := List (Descriptor × Channel)

namespace OpenFiles

/-- What a descriptor leads to. -/
def get? (o : OpenFiles) (d : Descriptor) : Option Channel := o.lookup d

/-- The open files without a descriptor. -/
def close (o : OpenFiles) (d : Descriptor) : OpenFiles := o.filter (·.1 != d)

/-- The open files with a descriptor that leads somewhere. -/
def put (o : OpenFiles) (d : Descriptor) (c : Channel) : OpenFiles := (d, c) :: close o d

/-- The lowest descriptor from three on that is not open. -/
def lowestFree (o : OpenFiles) : Descriptor :=
  ((List.range (o.length + 1)).map (· + 3)).find? (fun d => (o.lookup d).isNone) |>.getD 3

/-- The first three descriptors, which lead nowhere and to the two streams. -/
def standard : OpenFiles := [(0, .device .nothing), (1, .stream .out), (2, .stream .err)]

/-- The first three descriptors on the terminal. -/
def onTerminal : OpenFiles := [(0, .device .terminal), (1, .device .terminal), (2, .device .terminal)]

end OpenFiles

/-- The process whose children all processes become that lose their parent. -/
def firstPid : Pid := 1

/-- A process. `caught` are the signals that came for its handlers, `pending` the ones that wait until it goes on. `mask` tells
which rights new files do not get. -/
structure Process where
  pid : Pid
  parent : Pid
  group : Pid
  session : Pid
  life : Life := .running
  news : Option News := none
  program : Program
  files : OpenFiles
  directory : Inode
  dispositions : Dispositions
  mask : Nat
  caught : List Nat := []
  pending : List Nat := []

/-- The process of the shell. `unread` is what it has read from its input and not used yet, and `killed` the signal that made an
end of it. -/
structure ShellProcess where
  pid : Pid := 1000
  group : Pid := 1000
  session : Pid := 900
  files : OpenFiles := .standard
  directory : Inode := 0
  signals : ShellSignals := {}
  unread : List Char := []
  killed : Option Nat := none
  isAlive : Bool := true

/-- A file that was opened: which one, how far it has been read or written, and whether all that is written goes to its end. -/
structure Opening where
  node : Inode
  offset : Nat := 0
  appends : Bool := false

end JobShell.Machine

namespace JobShell

open Machine in
/-- A machine. `pipes` holds what is still to be read of each pipe, and `queues` the pipes of the queues that were opened. Times
are in millionths of a second; `alarm` is when the shell wants to be woken. The pipe made by the call of number `pipeFailsAt`
cannot be made. All texts inside the machine are octets. -/
structure Machine where
  tree : FileSystem := {}
  shell : ShellProcess := {}
  processes : List Process := []
  pipes : Array (List Char) := #[]
  openings : Array Opening := #[]
  queues : List (Inode × Nat) := []
  lastPid : Pid := 1000
  clock : Nat := 0
  alarm : Option Nat := none
  out : String := ""
  err : String := ""
  terminal : Option Terminal := none
  terminalFails : Bool := false
  pipeCalls : Nat := 0
  pipeFailsAt : Option Nat := none

namespace Machine

/-- The process with this id. -/
def process? (m : Machine) (pid : Pid) : Option Process := m.processes.find? (·.pid == pid)

/-- The machine with a process changed. -/
def modify (m : Machine) (pid : Pid) (change : Process → Process) : Machine :=
  { m with processes := m.processes.map fun p => if p.pid == pid then change p else p }

/-- The machine without a process. -/
def forget (m : Machine) (pid : Pid) : Machine := { m with processes := m.processes.filter (·.pid != pid) }

/-- The machine with the shell changed. -/
def modifyShell (m : Machine) (change : ShellProcess → ShellProcess) : Machine := { m with shell := change m.shell }

/-- The process has not ended. -/
def Process.isAlive (p : Process) : Bool :=
  match p.life with
  | .ended _ => false
  | _ => true

/-- The process is stopped. -/
def Process.isStopped (p : Process) : Bool :=
  match p.life with
  | .stopped _ => true
  | _ => false

/-- Some process that has not ended has a descriptor that leads to such a channel. -/
def holds (m : Machine) (leads : Channel → Bool) : Bool :=
  (m.shell.isAlive && m.shell.files.any fun f => leads f.2) ||
    m.processes.any fun p => p.isAlive && p.files.any fun f => leads f.2

/-- Somebody can read from a pipe. -/
def hasReader (m : Machine) (pipe : Nat) : Bool := m.holds fun c => c == .pipeRead pipe || c == .pipeBoth pipe

/-- Somebody can write to a pipe. -/
def hasWriter (m : Machine) (pipe : Nat) : Bool := m.holds fun c => c == .pipeWrite pipe || c == .pipeBoth pipe

/-- A new pipe with what it holds already. -/
def addPipe (m : Machine) (held : List Char) : Machine × Nat := ({ m with pipes := m.pipes.push held }, m.pipes.size)

/-- A new opening of a file. -/
def addOpening (m : Machine) (o : Opening) : Machine × Nat := ({ m with openings := m.openings.push o }, m.openings.size)

/-- How much a pipe holds before a writer has to wait. -/
def pipeCapacity : Nat := 65536

/-- How much is written to a pipe in one piece or not at all. -/
def pipeUnit : Nat := 4096

end Machine

end JobShell
