import JobShell.Dispositions
import JobShell.Machine.FileSystem
import JobShell.Machine.Script.State

/-!
# Programs

A program is what a process still has to do: it ends, or it asks the machine for one thing and goes on with the answer. A
program that goes on as long as it is fed takes its length from a bound that nothing reaches (`Program.endless`); only a script
can go on for ever, since what it does next is worked out when its turn comes.
-/

namespace JobShell.Machine

/-- What an open descriptor leads to: a stream of the machine, an end of a pipe or both, a place in a file, a directory, or a
device. -/
inductive Channel where
  | stream (s : Stream)
  | pipeRead (pipe : Nat)
  | pipeWrite (pipe : Nat)
  | pipeBoth (pipe : Nat)
  | file (opening : Nat) (reads writes : Bool)
  | directory (node : Inode)
  | device (d : Device)
  deriving DecidableEq, Repr

/-- How a file is opened: to be read, to be written anew, to be written at its end, to be read and written, or to be written
only if it was not there. -/
inductive OpenMode where
  | read | write | append | update | fresh
  deriving DecidableEq, Repr

/-- What waiting for a child brings: its end, a stop, the news that there is no such child, a signal that came first, or the
time that had been set. -/
inductive Awaited where
  | ended (pid : Pid) (how : ChildEnd)
  | stopped (pid : Pid) (signal : Nat)
  | noChild
  | interrupted
  | timedOut
  deriving DecidableEq, Repr

/-- How a process waits for children: for which one, whether signals interrupt it, whether stops count, whether it waits at all,
and until when. -/
structure Awaiting where
  pid : Option Pid := none
  interruptible : Bool := false
  stops : Bool := false
  blocks : Bool := true
  deadline : Option Nat := none

/-- What a program is called with: its own name, its arguments, and its environment. -/
structure Call where
  name : String
  arguments : List String := []
  environment : Environment := []

/-- A program. Reading brings at most so many octets, and none at the end. `openFile` takes the descriptor it is told to, or
the lowest one that is free; `meet` waits until somebody is at the other end of a pipe. A file to execute is given by its path,
or, where the machine `searches` for it, by a name that is looked for in the directories of `PATH`. Without a group to put a
process into, `regroup` makes a session. `startUp` is what a child of the shell does on its way to its program. -/
inductive Program where
  | exit (status : Nat)
  | read (source : Descriptor) (most : Nat) (next : Except FileError String → Program)
  | write (target : Descriptor) (text : String) (next : Except FileError Unit → Program)
  | seekBack (target : Descriptor) (distance : Nat) (next : Program)
  | openFile (target : Option Descriptor) (path : String) (mode : OpenMode) (next : Except FileError Descriptor → Program)
  | meet (target : Descriptor) (next : Program)
  | duplicate (source target : Descriptor) (next : Bool → Program)
  | close (target : Descriptor) (next : Program)
  | pipe (next : Descriptor → Descriptor → Program)
  | inspect (next : (Descriptor → Option Channel) → Program)
  | consult (next : FileSystem → Inode → Program)
  | change (next : FileSystem → Inode → FileSystem × Program)
  | enter (path : String) (next : Except FileError Unit → Program)
  | fork (child : Program) (next : Pid → Program)
  | awaitChild (how : Awaiting) (next : Awaited → Program)
  | signal (target : Pid) (number : Nat) (next : Except Errno Unit → Program)
  | ignored (next : List Nat → Program)
  | dispose (signals : List Nat) (target : Disposition) (next : Program)
  | identify (next : (self parent : Pid) → Program)
  | regroup (target : Option (Pid × Pid)) (next : Program)
  | foreground (change : Option Pid) (next : Option Pid → Program)
  | mask (change : Option Nat) (next : Nat → Program)
  | clock (next : Nat → Program)
  | sleepUntil (time : Nat) (next : Program)
  | execute (file : String) (searches : Bool) (call : Call) (failed : FileError → Program)
  | script (state : Script.State)
  | startUp (steps : List ChildStep)

namespace Program

/-- A number of steps that no program comes to the end of. -/
def endless : Nat := Nat.pow 2 62

/-- How much a tool reads and writes at once. -/
def blockSize : Nat := 65536

/-- Writes a message to the error stream and goes on. -/
def complain (text : String) (next : Program) : Program := if text.isEmpty then next else .write 2 text fun _ => next

/-- Writes a message to the error stream and fails. -/
def fail (text : String) (status : Nat) : Program := complain text (.exit status)

/-- Writes a text and goes on with its fate; nothing is written of an empty text. -/
def put (text : String) (next : Except FileError Unit → Program) : Program :=
  if text.isEmpty then next (.ok ()) else .write 1 text next

/-- Writes a text and goes on; a writer that cannot write says so and fails. -/
def say (name text : String) (next : Program) : Program :=
  put text fun
    | .ok () => next
    | .error e => fail (name ++ ": write error: " ++ e.description ++ "\n") 1

/-- Writes a text and ends. -/
def answer (name text : String) : Program := say name text (.exit 0)

/-- Lets time pass. -/
def sleep (duration : Nat) (next : Program) : Program := .clock fun now => .sleepUntil (now + duration) next

/-- Reads block by block until there is enough, or to the end; an error ends the input too. -/
def gather (source : Descriptor) (block : Nat) (enough : String → Bool) (next : String → Option FileError → Program) :
    (steps : Nat) → (held : String) → Program
  | 0, held => next held none
  | steps + 1, held =>
    .read source block fun
      | .error e => next held (some e)
      | .ok text =>
        let held := held ++ text
        if text.isEmpty || enough held then next held none else gather source block enough next steps held

/-- Reads all of an input. -/
def readAll (source : Descriptor) (next : String → Option FileError → Program) : Program :=
  gather source blockSize (fun _ => false) next endless ""

/-- Reads octet by octet to the end of a line, and says whether it came to one. Where reading is interrupted or fails, the line
ends. -/
def readLine (source : Descriptor) (next : String → Bool → Program) : (steps : Nat) → (held : List Char) → Program
  | 0, held => next (String.ofList held.reverse) false
  | steps + 1, held =>
    .read source 1 fun
      | .error _ => next (String.ofList held.reverse) false
      | .ok text =>
        match text.toList with
        | [] => next (String.ofList held.reverse) false
        | c :: _ => if c == '\n' then next (String.ofList held.reverse) true else readLine source next steps (c :: held)

/-- Closes several descriptors. -/
def closeAll (ds : List Descriptor) (next : Program) : Program := ds.foldr .close next

/-- Makes descriptors lead where others lead, in their order. -/
def copyDescriptors : List (Descriptor × Descriptor) → Program → Program
  | [], next => next
  | (source, target) :: rest, next => .duplicate source target fun _ => copyDescriptors rest next

end Program

end JobShell.Machine
