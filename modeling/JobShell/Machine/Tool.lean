import JobShell.Machine.Script.Step
import JobShell.Machine.Tool.Copying
import JobShell.Machine.Tool.Extent
import JobShell.Machine.Tool.Files
import JobShell.Machine.Tool.Lines
import JobShell.Machine.Tool.Listing
import JobShell.Machine.Tool.Processes
import JobShell.Machine.Tool.Replacing
import JobShell.Machine.Tool.Saying
import JobShell.Machine.Tool.Search
import JobShell.Machine.Tool.Sorting

/-!
# The tools of the machine

Every program that the machine comes with, under the name it has in its directory. A tool is a function of what it is called
with.
-/

namespace JobShell.Machine.Tool

/-- All tools by their names. -/
def table : List (String × (Call → Program)) := [
  ("[", test true), ("basename", basename), ("cat", cat), ("chmod", chmod), ("cp", cp), ("cut", cut), ("dash", Script.start),
  ("dirname", dirname), ("echo", echo), ("env", env), ("false", ending 1), ("grep", grep), ("head", head), ("kill", kill),
  ("ln", ln), ("ls", ls), ("mkdir", mkdir), ("mkfifo", mkfifo), ("mv", mv), ("nice", nice), ("nohup", nohup),
  ("printenv", printenv), ("printf", printf), ("pwd", pwd), ("readlink", readlink), ("realpath", realpath), ("rev", rev),
  ("rm", rm), ("rmdir", rmdir), ("seq", seq), ("setsid", setsid), ("sh", Script.start), ("sleep", sleep), ("sort", sort),
  ("tac", tac), ("tail", tail), ("tee", tee), ("test", test false), ("timeout", timeout), ("touch", touch), ("tr", tr),
  ("true", ending 0), ("tty", tty), ("uniq", uniq), ("wc", wc), ("xargs", xargs), ("yes", yes)]

/-- The program of a tool. -/
def run (tool : String) (call : Call) : Program :=
  match table.lookup tool with
  | some program => program call
  | none => .exit 127

end JobShell.Machine.Tool
