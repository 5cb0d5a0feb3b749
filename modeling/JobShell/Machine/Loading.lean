import JobShell.Machine.Process

/-!
# Loading programs

A program is found by its path, or by its name in the directories of `PATH`, in their order. A directory in which the name
cannot be looked up is passed over; one in which it must not be run is remembered as the reason if none is found. A file whose
text begins with `#!` is handed to the program named there, and any other text to `sh`.
-/

namespace JobShell.Machine

/-- A blank of the line that names an interpreter. -/
def isGap (c : Char) : Bool := c == ' ' || c == '\t'

/-- What a text names as its interpreter, with an argument for it. -/
def interpreter? (text : String) : Option (String × List String) :=
  match text.toList with
  | '#' :: '!' :: rest =>
    let line := dropEndWhile isGap ((rest.takeWhile (· != '\n')).dropWhile isGap)
    let argument := (line.dropWhile fun c => !isGap c).dropWhile isGap
    some (String.ofList (line.takeWhile fun c => !isGap c), if argument.isEmpty then [] else [String.ofList argument])
  | _ => none

/-- What is wrong with a program that cannot be loaded: an error, or that it is a text that does not say what is to run it. -/
inductive LoadFault where
  | error (e : FileError)
  | text

/-- The program of the file at a path. At most `depth` interpreters are followed. -/
def loadPath (fs : FileSystem) (cwd : Inode) : (depth : Nat) → (path : String) → Call → Except LoadFault Program
  | 0, _, _ => .error (.error .tooManyLinks)
  | depth + 1, path, call =>
    match fs.lookUp cwd path true with
    | .error e => .error (.error e)
    | .ok (_, .tool name) => .ok (Tool.run name call)
    | .ok (_, .file text mode) =>
      if !(Node.file text mode).isPassable then .error (.error .denied)
      else match interpreter? text with
        | some ("", _) | none => .error .text
        | some (program, extra) =>
          loadPath fs cwd depth program { call with name := program, arguments := extra ++ path :: call.arguments }
    | .ok _ => .error (.error .denied)

/-- How many programs in a row may come into play before one runs. -/
def interpreterDepth : Nat := 6

/-- The program of the file at a path; a text that the machine cannot run itself is run by `sh`. -/
def loadFile (fs : FileSystem) (cwd : Inode) (path : String) (call : Call) : Except FileError Program :=
  match loadPath fs cwd interpreterDepth path call with
  | .ok p => .ok p
  | .error (.error e) => .error e
  | .error .text => .ok (Script.start { call with name := "/bin/sh", arguments := path :: call.arguments })

/-- The errors after which the search goes on in the next directory. -/
def passesOver (e : FileError) : Bool := e = .notFound || e = .notDirectory || e = .denied

/-- Looks for a program in one directory after the other. `denied` says that one was found that must not be run, and `last` is
the last error. A directory whose name is too long counts as the working directory, but not in the last place. -/
def searchIn (fs : FileSystem) (cwd : Inode) (name : String) (call : Call) :
    List String → (denied : Bool) → (last : FileError) → Except FileError Program
  | [], denied, last => .error (if denied then .denied else last)
  | dir :: rest, denied, last =>
    let tooLong := FileSystem.maxPath < dir.length
    if tooLong && rest.isEmpty then .error (if denied then .denied else last)
    else match loadFile fs cwd (if tooLong || dir.isEmpty then name else dir ++ "/" ++ name) call with
      | .ok p => .ok p
      | .error e => if passesOver e then searchIn fs cwd name call rest (denied || e = .denied) e else .error e

/-- Where programs are looked for if there is no `PATH`. -/
def standardPath : String := "/bin:/usr/bin"

/-- The program in the file of this path or name. -/
def load (fs : FileSystem) (cwd : Inode) (file : String) (call : Call) : Except FileError Program :=
  if file.isEmpty then .error .notFound
  else if file.toList.contains '/' then loadFile fs cwd file call
  else if FileSystem.maxName < file.length then .error .nameTooLong
  else searchIn fs cwd file call (((call.environment.get? "PATH").getD standardPath).splitOn ":") false .notFound

end JobShell.Machine
