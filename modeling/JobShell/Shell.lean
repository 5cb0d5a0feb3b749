import JobShell.Execution

/-!
# The shell

A shell takes one line after the other. It remembers the lines that are not blank, trimmed and at most so many, and then reads
and runs each. Its settings come in three presets: plain, for the interactive loop, and for a single command.
-/

namespace JobShell

/-- The settings of a shell. The pause between two passes of the collector is in thousandths of a second. -/
structure Settings where
  name : String := "chirsh"
  interactive : Bool := false
  jobControl : Bool := false
  collectorPause : Nat := 200
  historyLimit : Nat := 1000
  deriving DecidableEq, Repr

namespace Settings

/-- The settings of the interactive loop; it controls jobs where its input is a terminal. -/
def forLoop (terminal : Bool) : Settings := { interactive := terminal, jobControl := terminal }

/-- The settings for a single command, which leaves no history. -/
def forCommand (terminal : Bool) : Settings := { forLoop terminal with historyLimit := 0 }

/-- The executor of a shell with these settings. -/
def executor (c : Settings) : Executor := { name := c.name }

end Settings

/-- The history with one more line, at most `limit` of them. A blank line is not remembered. -/
def rememberLine (limit : Nat) (history : List String) (line : String) : List String :=
  if isBlankLine line || limit == 0 then history
  else history.drop (history.length + 1 - limit) ++ [trim line]

namespace Act

variable {σ : Type}

/-- Remembers, reads and runs a line. -/
def runLine (S : System σ) (c : Settings) (line : String) : Act σ Int := do
  modify fun s => { s with history := rememberLine c.historyLimit s.history line }
  execute S c.executor (Pipeline.ofLine line) line

end Act

end JobShell
