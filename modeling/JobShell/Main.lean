import JobShell.CommandLine
import JobShell.Machine.Layout
import JobShell.Machine.Waiting

/-!
# The program

Runs the shell on a machine of its own: the arguments are the shell's, and the lines of the interactive loop come from the
standard input.
-/

namespace JobShell

/-- The home directory of the machine. -/
def homeDirectory : String := "/home/user"

/-- A session of the shell on a fresh machine with this input, and its exit code. The machine is at rest afterwards. -/
def runOnMachine (args : List String) (input : String) : Nat × Machine :=
  let (code, session) := Act.runCommandLine Machine.system args
    { world := (Machine.atHome homeDirectory).withInput input, environment := Machine.basicEnvironment homeDirectory }
  (code, session.world.wound)

/-- Reads all lines of a stream. -/
partial def readLines (input : IO.FS.Stream) (taken : String) : IO String := do
  let line ← input.getLine
  if line.isEmpty then return taken
  readLines input (taken ++ line)

end JobShell

/-- The program. -/
def main (args : List String) : IO UInt32 := do
  let input ← if args.isEmpty then JobShell.readLines (← IO.getStdin) "" else pure ""
  let (code, machine) := JobShell.runOnMachine args input
  IO.print (JobShell.Octets.text machine.out)
  IO.eprint (JobShell.Octets.text machine.err)
  return code.toUInt32
