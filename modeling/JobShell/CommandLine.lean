import JobShell.Interactive

/-!
# The command line

Without arguments the shell is an interactive loop; `-c` runs one line. The first argument alone decides, and what follows the
line of `-c` is not looked at.
-/

namespace JobShell

/-- What the arguments ask for. -/
inductive Invocation where
  | loop
  | command (line : String)
  | missingCommand
  | help
  | version
  | unknown (option : String)
  deriving DecidableEq, Repr

/-- What these arguments ask for. -/
def Invocation.ofArguments : List String → Invocation
  | [] => .loop
  | "--help" :: _ | "-h" :: _ => .help
  | "--version" :: _ | "-V" :: _ => .version
  | "-c" :: line :: _ => .command line
  | ["-c"] => .missingCommand
  | option :: _ => .unknown option

/-- The version of the shell. -/
def versionText : String := "0.1.0"

/-- What the shell says about its use. -/
def helpText : String :=
  "chirsh v" ++ versionText ++ "\n\nUsage:\n" ++
    "  chirsh                       Interactive REPL\n" ++
    "  chirsh -c <command>          Execute command and exit\n\nOptions:\n" ++
    "  -c <command>                 Execute command string and exit\n" ++
    "  -h, --help                   Show this help\n" ++
    "  -V, --version                Show version\n\nExamples:\n" ++
    "  chirsh                       # Start interactive REPL\n" ++
    "  chirsh -c 'ls | wc -l'       # Run a pipeline\n\n"

namespace Act

variable {σ : Type}

/-- Reports why the shell could not start. -/
def refuse (S : System σ) (e : StartError) : Act σ Nat := do
  write S .err ("Error: Failed to create kernel\n\nCaused by:\n    " ++ e.message ++ "\n")
  return 1

/-- Runs the shell as its arguments ask, and gives its exit code. -/
def runCommandLine (S : System σ) (args : List String) : Act σ Nat := do
  let terminal ← look S.promptsForLines
  match Invocation.ofArguments args with
  | .loop =>
    let c := Settings.forLoop terminal
    match ← start S c with
    | .error e => refuse S e
    | .ok () => interact S c
  | .command line =>
    let c := Settings.forCommand terminal
    match ← start S c with
    | .error e => refuse S e
    | .ok () =>
      let status ← runLine S c line
      stopCollector S
      return exitCode status
  | .missingCommand =>
    write S .err "Error: -c requires a command argument\n"
    return 1
  | .help =>
    write S .out helpText
    return 0
  | .version =>
    write S .out ("chirsh " ++ versionText ++ "\n")
    return 0
  | .unknown option =>
    write S .err ("Unknown option: " ++ option ++ "\nRun 'chirsh --help' for usage.\n")
    return 1

end Act

end JobShell
