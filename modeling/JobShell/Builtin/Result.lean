/-!
# Results of builtins

A builtin answers with a status and with what it has to say on either stream.
-/

namespace JobShell

/-- The status of a builtin and its texts for the two streams. -/
structure CommandResult where
  code : Int := 0
  out : String := ""
  err : String := ""
  deriving DecidableEq, Repr

namespace CommandResult

/-- Success with a text. -/
def success (out : String) : CommandResult := { out }

/-- Failure with a message. -/
def failure (code : Int) (err : String) : CommandResult := { code, err }

/-- A status without any text. -/
def ofCode (code : Int) : CommandResult := { code }

/-- Success when there is no message, else failure with the messages, one a line. -/
def ofErrors : List String → CommandResult
  | [] => success ""
  | errors => failure 1 ("\n".intercalate errors)

/-- The command succeeded. -/
def isOk (r : CommandResult) : Bool := r.code == 0

/-- The message as it is written: it ends its line. -/
def errLine (r : CommandResult) : String :=
  if r.err.isEmpty || r.err.endsWith "\n" then r.err else r.err ++ "\n"

end CommandResult

end JobShell
