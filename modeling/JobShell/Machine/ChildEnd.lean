import JobShell.Signal

/-!
# Ends of processes

A process ends of its own accord with an exit code, or is killed by a signal. A script sees either as a number, and says what
killed a child of it, unless it was an interrupt or a pipe that nobody reads.
-/

namespace JobShell.Machine

/-- How a child of a process ended: its exit code, or the number of the signal that killed it. -/
inductive ChildEnd where
  | exited (code : Nat)
  | killed (signal : Nat)
  deriving DecidableEq, Repr

namespace ChildEnd

/-- The status that a script sees of a child that ended. -/
def status : ChildEnd → Nat
  | .exited n => n
  | .killed n => 128 + n

/-- What is said of a signal that killed or stopped a process. -/
def signalText (n : Nat) : String :=
  match Signal.ofNumber? n with
  | some .hup => "Hangup"
  | some .int => "Interrupt"
  | some .quit => "Quit"
  | some .ill => "Illegal instruction"
  | some .trap => "Trace/breakpoint trap"
  | some .abrt => "Aborted"
  | some .bus => "Bus error"
  | some .fpe => "Floating point exception"
  | some .kill => "Killed"
  | some .usr1 => "User defined signal 1"
  | some .segv => "Segmentation fault"
  | some .usr2 => "User defined signal 2"
  | some .pipe => "Broken pipe"
  | some .alrm => "Alarm clock"
  | some .term => "Terminated"
  | some .stkflt => "Stack fault"
  | some .chld => "Child exited"
  | some .cont => "Continued"
  | some .urg => "Urgent I/O condition"
  | some .xcpu => "CPU time limit exceeded"
  | some .xfsz => "File size limit exceeded"
  | some .vtalrm => "Virtual timer expired"
  | some .prof => "Profiling timer expired"
  | some .winch => "Window changed"
  | some .io => "I/O possible"
  | some .pwr => "Power failure"
  | some .sys => "Bad system call"
  | some .stop => "Stopped (signal)"
  | some .tstp => "Stopped"
  | some .ttin => "Stopped (tty input)"
  | some .ttou => "Stopped (tty output)"
  | none => "Real-time signal " ++ toString (n - 34)

/-- What is said of a child that was waited for; nothing of one that ended well, of an interrupt or a broken pipe. -/
def message? : ChildEnd → Option String
  | .exited _ => none
  | .killed n => if n = Signal.int.number || n = Signal.pipe.number then none else some (signalText n)

/-- The end as a list of jobs shows it. -/
def text : ChildEnd → String
  | .exited 0 => "Done"
  | .exited n => "Done(" ++ toString n ++ ")"
  | .killed n => signalText n

end ChildEnd

end JobShell.Machine
