/-!
# Signals

The signals that have a name, with their numbers. A signal can be named in full (`SIGTERM`), in any mixture of upper and lower
case, without the first three letters, or by its number (`Signal.parse?`).
-/

namespace JobShell

/-- The signals with a name of their own. -/
inductive Signal where
  | hup | int | quit | ill | trap | abrt | bus | fpe | kill | usr1 | segv | usr2 | pipe | alrm | term | stkflt | chld | cont
  | stop | tstp | ttin | ttou | urg | xcpu | xfsz | vtalrm | prof | winch | io | pwr | sys
  deriving DecidableEq, Repr

namespace Signal

/-- All signals with their full names, in the order of their numbers, which start at one. -/
def names : List (Signal × String) := [
  (.hup, "SIGHUP"), (.int, "SIGINT"), (.quit, "SIGQUIT"), (.ill, "SIGILL"), (.trap, "SIGTRAP"), (.abrt, "SIGABRT"),
  (.bus, "SIGBUS"), (.fpe, "SIGFPE"), (.kill, "SIGKILL"), (.usr1, "SIGUSR1"), (.segv, "SIGSEGV"), (.usr2, "SIGUSR2"),
  (.pipe, "SIGPIPE"), (.alrm, "SIGALRM"), (.term, "SIGTERM"), (.stkflt, "SIGSTKFLT"), (.chld, "SIGCHLD"),
  (.cont, "SIGCONT"), (.stop, "SIGSTOP"), (.tstp, "SIGTSTP"), (.ttin, "SIGTTIN"), (.ttou, "SIGTTOU"), (.urg, "SIGURG"),
  (.xcpu, "SIGXCPU"), (.xfsz, "SIGXFSZ"), (.vtalrm, "SIGVTALRM"), (.prof, "SIGPROF"), (.winch, "SIGWINCH"),
  (.io, "SIGIO"), (.pwr, "SIGPWR"), (.sys, "SIGSYS")]

/-- The number of a signal. -/
def number (s : Signal) : Nat := s.ctorIdx + 1

/-- The full name of a signal. -/
def name (s : Signal) : String := (names.lookup s).getD ""

/-- The signal with this number. -/
def ofNumber? (n : Nat) : Option Signal :=
  match n with
  | 0 => none
  | k + 1 => (names[k]?).map (·.1)

/-- The signal with this full name. -/
def ofName? (text : String) : Option Signal :=
  (names.find? (·.2 == text)).map (·.1)

theorem ofNumber?_number (s : Signal) : ofNumber? s.number = some s := by cases s <;> rfl

theorem ofName?_name (s : Signal) : ofName? s.name = some s := by cases s <;> decide +kernel

end Signal

end JobShell
