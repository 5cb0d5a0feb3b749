import JobShell.Machine.Tool.Options
import JobShell.Machine.Quoting

/-!
# What tools read

A tool reads the files it is given, or its input where it is given none; a dash stands for the input too. A file is opened, read
block by block and closed. A file that cannot be read is reported, and the tool goes on without it and fails in the end.
-/

namespace JobShell.Machine.Tool

/-- Why there is nothing to read, or nothing more: the file cannot be opened, or it cannot be read. -/
inductive InputFault where
  | opening (e : FileError)
  | reading (e : FileError)

/-- An input of a tool: the name it was given by, and its text as far as it could be read. -/
structure ToolInput where
  file : String
  text : String
  fault : Option InputFault := none

namespace ToolInput

/-- The input could be opened. -/
def isOpen (i : ToolInput) : Bool :=
  match i.fault with
  | some (.opening _) => false
  | _ => true

/-- The name of the input, where the standard one has a name too. -/
def shownName (i : ToolInput) : String := if i.file == "-" then "standard input" else i.file

end ToolInput

/-- Opens a file and goes on with a descriptor of it; a dash is the input, which is open already. -/
def openInput (file : String) (next : Except FileError Descriptor → Program) : Program :=
  if file == "-" then next (.ok 0) else .openFile none file .read next

/-- Closes what was opened. -/
def closeInput (file : String) (d : Descriptor) (next : Program) : Program := if file == "-" then next else .close d next

/-- Reads a file to its end. -/
def readInput (file : String) (next : ToolInput → Program) : Program :=
  openInput file fun
    | .error e => next { file, text := "", fault := some (.opening e) }
    | .ok d => .readAll d fun text e => closeInput file d (next { file, text, fault := e.map .reading })

/-- Reads files one after the other, and the input if there are none. -/
def readInputs (files : List String) (next : List ToolInput → Program) : Program :=
  go (if files.isEmpty then ["-"] else files) []
where
  /-- Reads one file after the other. -/
  go : List String → List ToolInput → Program
    | [], inputs => next inputs.reverse
    | file :: rest, inputs => readInput file fun i => go rest (i :: inputs)

/-- What most tools say of an input that cannot be used: the name and the reason. -/
def plainFault (call : Call) (file : String) : InputFault → String
  | .opening e | .reading e => message call (bare file ++ ": " ++ e.description)

/-- What some tools say: whether the file could not be opened or not be read. -/
def openingFault (call : Call) (file : String) : InputFault → String
  | .opening e => message call ("cannot open " ++ quoted file ++ " for reading: " ++ e.description)
  | .reading e => message call ("error reading " ++ quoted file ++ ": " ++ e.description)

/-- A way through lines, one after the other: what each line makes of a state and what is written then, and whether there is
enough. Lines come with their ends. Before its lines, each block is looked at as a whole. -/
structure LineFilter (σ : Type) where
  step : σ → String → σ × String
  hasEnough : σ → Bool := fun _ => false
  look : σ → String → σ := fun s _ => s

/-- Some lines put through a filter, until there is enough. -/
def LineFilter.runLines (f : LineFilter σ) : σ → List String → List String → σ × String
  | state, [], out => (state, String.join out.reverse)
  | state, line :: rest, out =>
    if f.hasEnough state then (state, String.join out.reverse)
    else
      let (state, text) := f.step state line
      f.runLines state rest (text :: out)

/-- Puts an input through a filter as it comes. What is written goes out at the latest before more is read. -/
def filterInput (call : Call) (f : LineFilter σ) (source : Descriptor) (next : σ → Option FileError → Program) :
    (steps : Nat) → σ → (held : List Char) → Program
  | 0, state, _ => next state none
  | steps + 1, state, held =>
    .read source Program.blockSize fun
      | .error e =>
        let (state, out) := f.runLines state (if held.isEmpty then [] else [String.ofList held]) []
        .say call.name out (next state (some e))
      | .ok text =>
        if text.isEmpty then
          let (state, out) := f.runLines state (if held.isEmpty then [] else [String.ofList held]) []
          .say call.name out (next state none)
        else
          let state := f.look state text
          let cs := held ++ text.toList
          let whole := (cs.reverse.dropWhile (· != '\n')).reverse
          let (state, out) := f.runLines state (cutLines (String.ofList whole)) []
          .say call.name out (if f.hasEnough state then next state none
            else filterInput call f source next steps state (cs.drop whole.length))

/-- Puts files through a filter, one after the other, and the input if there are none. The state goes on from file to file. -/
def filterFiles (call : Call) (f : LineFilter σ) (fault : String → InputFault → String) (failure : Nat)
    (next : σ → (status : Nat) → Program) : List String → σ → (status : Nat) → Program
  | [], state, status => next state status
  | file :: rest, state, status =>
    let report (state : σ) (e : InputFault) : Program :=
      .complain (fault file e) (filterFiles call f fault failure next rest state failure)
    openInput file fun
      | .error e => report state (.opening e)
      | .ok d => filterInput call f d (fun state e => closeInput file d (match e with
          | some e => report state (.reading e)
          | none => if f.hasEnough state then next state status else filterFiles call f fault failure next rest state status))
        Program.endless state []

/-- Writes texts to the output and to the error stream, one after the other. -/
def writeParts (call : Call) : List (Bool × String) → Program → Program
  | [], next => next
  | (true, text) :: rest, next => .complain text (writeParts call rest next)
  | (false, text) :: rest, next => .say call.name text (writeParts call rest next)

/-- The files of a tool, or its input if there are none. -/
def orInput (files : List String) : List String := if files.isEmpty then ["-"] else files

/-- A line without its end, and its end. -/
def splitEnd (line : String) : String × String :=
  if line.endsWith "\n" then (String.ofList line.toList.dropLast, "\n") else (line, "")

/-- Text aligned to the right. -/
def alignRight (width : Nat) (s : String) : String := "".pushn ' ' (width - s.length) ++ s

end JobShell.Machine.Tool
