import JobShell.Errno
import JobShell.Signal

/-!
# What a process does about signals

Every signal has a disposition in every process: the default action, none, or a handler. An interactive shell installs its
handlers once; installing them again changes nothing, whatever became of the dispositions in between.
-/

namespace JobShell

/-- What happens when a signal arrives. -/
inductive Disposition where
  | default | ignore | handler
  deriving DecidableEq, Repr

/-- The word for a disposition. -/
def Disposition.text : Disposition → String
  | .default => "default"
  | .ignore => "ignore"
  | .handler => "handler"

/-- The dispositions of a process. A signal in neither list has the default action. Signals are given by their numbers, since
some have no name. -/
structure Dispositions where
  ignored : List Nat := []
  caught : List Nat := []
  deriving DecidableEq, Repr

namespace Dispositions

/-- The disposition of a signal. -/
def of (d : Dispositions) (n : Nat) : Disposition :=
  if d.ignored.contains n then .ignore else if d.caught.contains n then .handler else .default

/-- The dispositions with one of them set. -/
def set (d : Dispositions) (n : Nat) (target : Disposition) : Dispositions :=
  let ignored := d.ignored.filter (· != n)
  let caught := d.caught.filter (· != n)
  match target with
  | .default => { ignored, caught }
  | .ignore => { ignored := n :: ignored, caught }
  | .handler => { ignored, caught := n :: caught }

/-- The dispositions with several of them set. -/
def setAll (d : Dispositions) (target : Disposition) (signals : List Signal) : Dispositions :=
  signals.foldl (fun d s => d.set s.number target) d

/-- What stays of the dispositions when another program takes over: handlers are lost, ignored signals stay ignored. -/
def forProgram (d : Dispositions) : Dispositions := { d with caught := [] }

/-- The dispositions of a child of the shell. A background child is not to be interrupted from the keyboard. -/
def forChild (d : Dispositions) (foreground : Bool) : Dispositions :=
  (d.setAll (if foreground then .default else .ignore) [.int, .quit]).setAll .default [.tstp, .ttin, .ttou, .chld]

/-- The dispositions of an interactive shell: it notes the end of a child, starts a new line on an interrupt, and cannot be
stopped from the keyboard. -/
def interactive (d : Dispositions) : Dispositions :=
  (d.setAll .handler [.chld, .int]).setAll .ignore [.tstp, .ttou]

end Dispositions

/-- The signals of a shell: its dispositions, whether its handlers were installed, and whether a child changed since the shell
last asked. -/
structure ShellSignals where
  dispositions : Dispositions := { ignored := [Signal.pipe.number] }
  installed : Bool := false
  childChanged : Bool := false
  deriving DecidableEq, Repr

namespace ShellSignals

/-- Installs the handlers, the first time only. -/
def install (s : ShellSignals) : ShellSignals :=
  if s.installed then s else { s with dispositions := s.dispositions.interactive, installed := true }

/-- Interrupt and quit from the keyboard are ignored. -/
def ignoreKeyboard (s : ShellSignals) : ShellSignals :=
  { s with dispositions := s.dispositions.setAll .ignore [.int, .quit] }

/-- Interrupt and quit from the keyboard have their default actions again. -/
def restoreKeyboard (s : ShellSignals) : ShellSignals :=
  { s with dispositions := s.dispositions.setAll .default [.int, .quit] }

/-- Whether a child changed, which is then forgotten. -/
def takeChildChanged (s : ShellSignals) : Bool × ShellSignals := (s.childChanged, { s with childChanged := false })

end ShellSignals

/-- Why a shell could not start. -/
inductive StartError where
  | signal (signal : Signal) (cause : Errno)
  | processGroup (cause : Errno)
  deriving DecidableEq, Repr

/-- The text of a start error. -/
def StartError.message : StartError → String
  | .signal s cause => "failed to install handler for " ++ s.name ++ ": " ++ cause.message
  | .processGroup cause => "failed to set up shell process group: " ++ cause.message

end JobShell
