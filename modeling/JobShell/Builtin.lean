import JobShell.Builtin.Directory
import JobShell.Builtin.Kill
import JobShell.Builtin.Variables

/-!
# Builtins

The commands that the shell runs in its own process. A set of builtins is a list of them; a program outside the set is no
builtin, whatever its name.
-/

namespace JobShell

/-- The builtin commands, in the order of their names. -/
inductive Builtin where
  | bg | cd | echo | env | exit | exportVars | fg | history | jobs | kill | pwd | unsetVars
  deriving DecidableEq, Repr

namespace Builtin

/-- All builtins. -/
def all : List Builtin :=
  [.bg, .cd, .echo, .env, .exit, .exportVars, .fg, .history, .jobs, .kill, .pwd, .unsetVars]

/-- The name that a builtin is called by. -/
def name : Builtin → String
  | .bg => "bg"
  | .cd => "cd"
  | .echo => "echo"
  | .env => "env"
  | .exit => "exit"
  | .exportVars => "export"
  | .fg => "fg"
  | .history => "history"
  | .jobs => "jobs"
  | .kill => "kill"
  | .pwd => "pwd"
  | .unsetVars => "unset"

/-- The builtin of a set with this name. -/
def find? (builtins : List Builtin) (program : String) : Option Builtin :=
  builtins.find? (·.name == program)

end Builtin

/-- What `echo` prints: its arguments parted by spaces and, unless the first one is `-n`, the end of the line. -/
def echoText : List String → String
  | "-n" :: words => " ".intercalate words
  | words => " ".intercalate words ++ "\n"

/-- The history as it is listed: every line with its place, counted from one. -/
def historyText (lines : List String) : String :=
  String.join (lines.mapIdx fun i line => toString (i + 1) ++ " " ++ line ++ "\n")

/-- The answer of `exit`: its operand modulo 256, or 0. -/
def exitResult : List String → CommandResult
  | [] => .ofCode 0
  | arg :: _ =>
    match Numeral.int64? arg with
    | some n => .ofCode (n % 256)
    | none => .failure 2 ("exit: " ++ arg ++ ": numeric argument required")

namespace Act

variable {σ : Type}

/-- Runs a builtin. -/
def runBuiltin (S : System σ) (args : List String) : Builtin → Act σ CommandResult
  | .bg => bg S args
  | .cd => cd S args
  | .echo => pure (.success (echoText args))
  | .env => env
  | .exit => do
    modify fun s => { s with exiting := true }
    return exitResult args
  | .exportVars => exportAll args
  | .fg => fg S args
  | .history => do return .success (historyText (← get).history)
  | .jobs => jobs
  | .kill => kill S args
  | .pwd => pwd S
  | .unsetVars => unsetAll args

/-- Runs the builtin of a set that a stage names. -/
def runNamed (S : System σ) (builtins : List Builtin) (stage : Stage) : Act σ CommandResult :=
  match Builtin.find? builtins stage.program with
  | some b => runBuiltin S stage.operands b
  | none => pure (.failure 127 (stage.program ++ ": not a builtin"))

end Act

end JobShell
