import JobShell.Dispositions
import JobShell.Environment
import JobShell.Pipeline
import JobShell.Wait

/-!
# The system under the shell

The shell asks the system it runs on for a fixed set of things: processes and their groups, signals and waits, pipes, the
terminal, the working directory, and a place to write to. A `System σ` answers these requests on states of type `σ`. Nothing
is assumed about the answers; what the shell does is a function of them. `Machine` is one such system.

A child is made in one request. What it does before it becomes the program of its stage is written down as a list of steps
(`ChildPlan.steps`), in the order in which the child takes them.
-/

namespace JobShell

/-- A number that stands for an open file of a process. -/
abbrev Descriptor := Nat

/-- The two streams that a process writes to. -/
inductive Stream where
  | out | err
  deriving DecidableEq, Repr

/-- Why a file or a directory cannot be used. -/
inductive FileError where
  | notFound | notDirectory | isDirectory | tooManyLinks | nameTooLong | denied | exists | notEmpty | containsNul
  | notPermitted | interrupted | inputOutput | noDevice | badDescriptor | invalid | noSpace | illegalSeek | brokenPipe
  deriving DecidableEq, Repr

/-- The description of the error, as the C library words it. -/
def FileError.description : FileError → String
  | .notFound => "No such file or directory"
  | .notDirectory => "Not a directory"
  | .isDirectory => "Is a directory"
  | .tooManyLinks => "Too many levels of symbolic links"
  | .nameTooLong => "File name too long"
  | .denied => "Permission denied"
  | .exists => "File exists"
  | .notEmpty => "Directory not empty"
  | .containsNul => "file name contained an unexpected NUL byte"
  | .notPermitted => "Operation not permitted"
  | .interrupted => "Interrupted system call"
  | .inputOutput => "Input/output error"
  | .noDevice => "No such device or address"
  | .badDescriptor => "Bad file descriptor"
  | .invalid => "Invalid argument"
  | .noSpace => "No space left on device"
  | .illegalSeek => "Illegal seek"
  | .brokenPipe => "Broken pipe"

/-- The number of the error, where the system gave one. -/
def FileError.number? : FileError → Option Nat
  | .notFound => some 2
  | .notDirectory => some 20
  | .isDirectory => some 21
  | .tooManyLinks => some 40
  | .nameTooLong => some 36
  | .denied => some 13
  | .exists => some 17
  | .notEmpty => some 39
  | .containsNul => none
  | .notPermitted => some 1
  | .interrupted => some 4
  | .inputOutput => some 5
  | .noDevice => some 6
  | .badDescriptor => some 9
  | .invalid => some 22
  | .noSpace => some 28
  | .illegalSeek => some 29
  | .brokenPipe => some 32

/-- The text of the error: the description, then the number in brackets. -/
def FileError.message (e : FileError) : String :=
  match e.number? with
  | some n => e.description ++ " (os error " ++ toString n ++ ")"
  | none => e.description

/-- How a child is to be set up. `group` is the group to join, none for a group of its own; `input` and `output` are the
descriptors that become 0 and 1; `close` are the ones closed after that. -/
structure ChildPlan where
  shell : String
  stage : Stage
  environment : Environment
  group : Option Pid
  foreground : Bool
  claimsTerminal : Bool
  input : Option Descriptor
  output : Option Descriptor
  close : List Descriptor
  deriving DecidableEq, Repr

/-- One step of a child on its way to its program. -/
inductive ChildStep where
  | joinGroup (group : Option Pid)
  | claimTerminal
  | resetSignals (foreground : Bool)
  | duplicate (source target : Descriptor)
  | close (descriptor : Descriptor)
  | execute (shell : String) (stage : Stage) (environment : Environment)
  deriving DecidableEq, Repr

/-- The steps of a child in their order. -/
def ChildPlan.steps (p : ChildPlan) : List ChildStep :=
  [.joinGroup p.group] ++ (if p.claimsTerminal then [.claimTerminal] else []) ++ [.resetSignals p.foreground] ++
    (p.input.map fun d => .duplicate d 0).toList ++ (p.output.map fun d => .duplicate d 1).toList ++
    p.close.map .close ++ [.execute p.shell p.stage p.environment]

/-- What reading a line brings: a line, one that is not written in UTF-8, an error, the end of the input, or an interruption
before any of them. -/
inductive LineRead where
  | line (text : String)
  | unreadable
  | failed (cause : FileError)
  | ended
  | interrupted
  deriving DecidableEq, Repr

/-- A system: how it answers the requests of the shell, on states of type `σ`. A wait takes the group; `await` blocks until a
child of it ends or stops, `poll` never blocks and reports children that go on as well. Both may be interrupted, `await` at
the latest at the time set by `wakeAt`. `awaitProcess` is a wait for the end of a single child. `patience` bounds how many results
the shell asks for in one wait. `beginInteractive` sets up signals and group of an interactive shell, and `saveText` makes the
directory where it is missing and keeps silent when it fails. -/
structure System (σ : Type) where
  patience : Nat
  groupOf : Pid → σ → Option Pid
  signalGroup : Pid → Signal → σ → Except Errno Unit × σ
  signalProcess : Pid → Signal → σ → Except Errno Unit × σ
  await : Pid → σ → WaitResult × σ
  awaitProcess : Pid → σ → WaitResult × σ
  poll : Pid → σ → WaitResult × σ
  terminalAttached : σ → Bool
  giveTerminal : Pid → σ → Except Errno Unit × σ
  reclaimTerminal : σ → Except Errno Unit × σ
  makePipe : σ → Except Errno (Descriptor × Descriptor) × σ
  closeDescriptor : Descriptor → σ → σ
  fork : ChildPlan → σ → Except Errno Pid × σ
  placeInGroup : Pid → Pid → σ → σ
  workingDirectory : σ → Except FileError String
  changeDirectory : String → σ → Except FileError Unit × σ
  write : Stream → String → σ → σ
  promptsForLines : σ → Bool
  readLine : σ → LineRead × σ
  now : σ → Nat
  wakeAt : Option Nat → σ → σ
  beginInteractive : σ → Except StartError Unit × σ
  hostName : σ → String
  accountName : σ → String
  accountHome : σ → String
  readText : String → σ → Option String
  saveText : (directory file text : String) → σ → σ

end JobShell
