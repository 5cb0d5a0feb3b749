import JobShell.Machine.Rights
import JobShell.Machine.Tool.Input

/-!
# Tools that make and remove

Directories, queues and empty files are made, and all kinds of things are removed. Each operand is seen to on its own: what
cannot be done is reported, and the tool fails in the end.
-/

namespace JobShell.Machine.Tool

/-- Does something to each operand in turn; `act` is told where to go on and how it went. -/
def forEach (act : String → (Bool → Program) → Program) : List String → (status : Nat) → Program
  | [], status => .exit status
  | operand :: rest, status => act operand fun done => forEach act rest (if done then status else 1)

/-- Changes the file system, says what was done, and reports what cannot be done. -/
def changing (call : Call) (change : FileSystem → Inode → Except String (FileSystem × String)) (next : Bool → Program) : Program :=
  .change fun fs cwd =>
    match change fs cwd with
    | .ok (fs, said) => (fs, .say call.name said (next true))
    | .error reason => (fs, .complain (message call reason) (next false))

/-- The mode of what is made, if the word that asks for it can be read; without one it is what the mask leaves of `full`. -/
def withRights (call : Call) (word? : Option String) (full : Nat) (next : Nat → Program) : Program :=
  .mask none fun mask =>
    match word? with
    | none => next (full &&& (0o777 ^^^ mask))
    | some word =>
      match newRights? mask true word full with
      | some rights => next rights
      | none => refuse call ("invalid mode " ++ cited word) 1

/-- The longer and longer beginnings of a path, each up to a slash. -/
def stepsOf (path : String) : List String :=
  let cs := path.toList
  let ends := (List.range cs.length).filter fun i => cs[i]? != some '/' && (cs[i + 1]? == some '/' || i + 1 = cs.length)
  ends.map fun i => String.ofList (cs.take (i + 1))

/-- Makes the directories on a path that are missing, and says which ones they are. -/
def makeMissing (call : Call) (loud : Bool) (above rights : Nat) (path : String) (fs : FileSystem) (cwd : Inode) :
    Except String (FileSystem × String) :=
  let steps := stepsOf path
  if steps.isEmpty then
    if path.isEmpty then .error ("cannot create directory " ++ quoted path ++ ": " ++ FileError.description .notFound)
    else .ok (fs, "")
  else
    steps.foldlM (fun ((fs, said) : FileSystem × String) step =>
      match fs.lookUp cwd step true with
      | .ok (_, n) =>
        if n.isDirectory then .ok (fs, said)
        else
          let e : FileError := if step = withoutEnd path then .exists else .notDirectory
          .error ("cannot create directory " ++ quoted step ++ ": " ++ e.description)
      | .error _ =>
        match fs.makeDirectory cwd step (if step = withoutEnd path then rights else above) with
        | .ok fs =>
          .ok (fs, if loud then said ++ message call ("created directory " ++ quoted step) else said)
        | .error e => .error ("cannot create directory " ++ quoted step ++ ": " ++ e.description)) (fs, "")
where
  /-- A path without the slashes at its end. -/
  withoutEnd (path : String) : String := FileSystem.withoutSlashes path

/-- Makes directories. -/
def mkdir (call : Call) : Program :=
  let table : OptionTable := {
    letters := "m:pvZ", names := [("mode", 'm', .needed), ("parents", 'p', .flag), ("verbose", 'v', .flag)] }
  withOptions call table 1 fun o =>
    if o.operands.isEmpty then misuse call "missing operand" 1
    else withRights call (o.value? 'm') 0o777 fun rights => .mask none fun mask =>
      let above := (0o777 &&& (0o777 ^^^ mask)) ||| 0o300
      forEach (fun path next =>
        if o.has 'p' then changing call (makeMissing call (o.has 'v') above rights path) next
        else changing call (fun fs cwd =>
          match fs.makeDirectory cwd path rights with
          | .ok fs => .ok (fs, if o.has 'v' then message call ("created directory " ++ quoted path) else "")
          | .error e => .error ("cannot create directory " ++ quoted path ++ ": " ++ e.description)) next) o.operands 0

/-- Makes queues. -/
def mkfifo (call : Call) : Program :=
  withOptions call { letters := "m:Z", names := [("mode", 'm', .needed)] } 1 fun o =>
    if o.operands.isEmpty then misuse call "missing operand" 1
    else withRights call (o.value? 'm') 0o666 fun rights =>
      forEach (fun path => changing call fun fs cwd =>
        match fs.create cwd path fun _ => .queue rights with
        | .ok (fs, _) => .ok (fs, "")
        | .error e => .error ("cannot create fifo " ++ quoted path ++ ": " ++ e.description)) o.operands 0

/-- Removes a directory and, if that is wanted, the ones above it. At most `depth` are removed. -/
def removeEmpty (call : Call) (above loud lenient : Bool) : (depth : Nat) → (path : String) → (isFirst : Bool) →
    (Bool → Program) → Program
  | 0, _, _, next => next true
  | depth + 1, path, isFirst, next =>
    .say call.name (if loud then message call ("removing directory, " ++ quoted path) else "")
      (.change fun fs cwd =>
        match fs.removeDirectory cwd path with
        | .ok fs =>
          let upper := FileSystem.withoutSlashes (String.ofList ((FileSystem.withoutSlashes path).toList.reverse.dropWhile (· != '/')).reverse)
          (fs, if above && !upper.isEmpty then removeEmpty call above loud lenient depth upper false next else next true)
        | .error e =>
          if lenient && e = .notEmpty then (fs, next true)
          else
            let what := if isFirst then "failed to remove " else "failed to remove directory "
            (fs, .complain (message call (what ++ quoted path ++ ": " ++ e.description)) (next false)))

/-- Removes empty directories. -/
def rmdir (call : Call) : Program :=
  let table : OptionTable := {
    letters := "pv"
    names := [("parents", 'p', .flag), ("verbose", 'v', .flag), ("ignore-fail-on-non-empty", 'i', .flag)] }
  withOptions call table 1 fun o =>
    if o.operands.isEmpty then misuse call "missing operand" 1
    else forEach (fun path => removeEmpty call (o.has 'p') (o.has 'v') (o.has 'i') (path.length + 1) path true) o.operands 0

/-- How things are removed: with all that is in them, empty directories too, and whether what is not there matters. -/
structure Removing where
  recursive : Bool := false
  directories : Bool := false
  forced : Bool := false
  loud : Bool := false

/-- Removes what a path leads to. The answer says what was removed and what could not be. At most `depth` directories lie within
each other. -/
def Removing.remove (r : Removing) (call : Call) (cwd : Inode) :
    (depth : Nat) → FileSystem → (path : String) → FileSystem × List (Bool × String)
  | 0, fs, _ => (fs, [])
  | depth + 1, fs, path =>
    let refused (e : FileError) : List (Bool × String) :=
      [(true, message call ("cannot remove " ++ quoted path ++ ": " ++ e.description))]
    let gone (what : String) : List (Bool × String) := if r.loud then [(false, "removed " ++ what ++ quoted path ++ "\n")] else []
    match fs.lookUp cwd path false with
    | .error e => (fs, if r.forced && (e = .notFound || e = .notDirectory) then [] else refused e)
    | .ok (i, n) =>
      if !n.isDirectory then
        match fs.removeFile cwd path with
        | .ok fs => (fs, gone "")
        | .error e => (fs, refused e)
      else if !r.recursive && !r.directories then (fs, refused .isDirectory)
      else if r.recursive && !(fs.entries i).isEmpty && !n.isReadable then (fs, refused .denied)
      else
        let (fs, parts) := if !r.recursive then (fs, []) else
          (fs.entries i).foldl (fun ((fs, parts) : FileSystem × List (Bool × String)) entry =>
            let (fs, more) := r.remove call cwd depth fs (if path.endsWith "/" then path ++ entry.1 else path ++ "/" ++ entry.1)
            (fs, parts ++ more)) (fs, [])
        if parts.any (·.1) then (fs, parts)
        else match fs.removeDirectory cwd path with
          | .ok fs => (fs, parts ++ gone "directory ")
          | .error e => (fs, parts ++ refused e)

/-- Removes files and directories. -/
def rm (call : Call) : Program :=
  let table : OptionTable := {
    letters := "dfirRvI"
    names := [("force", 'f', .flag), ("recursive", 'r', .flag), ("dir", 'd', .flag), ("verbose", 'v', .flag),
      ("no-preserve-root", '/', .flag), ("preserve-root", '=', .optional), ("interactive", 'i', .optional)] }
  withOptions call table 1 fun o =>
    let r : Removing := {
      recursive := o.has 'r' || o.has 'R', directories := o.has 'd', forced := o.has 'f', loud := o.has 'v' }
    if o.operands.isEmpty then (if r.forced then .exit 0 else misuse call "missing operand" 1)
    else forEach (fun path next =>
      let last := ((path.splitOn "/").filter (· != "")).getLast?
      if (r.recursive || r.directories) && (last == some "." || last == some "..") then
        .complain (message call ("refusing to remove '.' or '..' directory: skipping " ++ quoted path)) (next false)
      else if r.recursive && last.isNone && !path.isEmpty then
        .complain (message call ("it is dangerous to operate recursively on " ++ quoted path) ++
          message call "use --no-preserve-root to override this failsafe") (next false)
      else .change fun fs cwd =>
        let (fs, parts) := r.remove call cwd (fs.nodes.size + 1) fs path
        (fs, writeParts call parts (next (!parts.any (·.1))))) o.operands 0

/-- Makes empty files where there is nothing; what is there is as good as new. -/
def touch (call : Call) : Program :=
  let table : OptionTable := {
    letters := "acd:fhmr:t:"
    names := [("no-create", 'c', .flag), ("date", 'd', .needed), ("reference", 'r', .needed), ("no-dereference", 'h', .flag),
      ("time", 'T', .needed)] }
  withOptions call table 1 fun o =>
    .consult fun fs cwd => .mask none fun mask =>
      match (o.value? 'r').map fun file => (file, fs.lookUp cwd file true) with
      | some (file, .error e) => refuse call ("failed to get attributes of " ++ quoted file ++ ": " ++ e.description) 1
      | _ =>
        if o.operands.isEmpty then misuse call "missing file operand" 1
        else forEach (fun path => changing call fun fs cwd =>
          if path == "-" then .ok (fs, "")
          else match fs.lookUp cwd path true with
            | .ok (_, n) =>
              if n.isWritable || n.isDirectory then .ok (fs, "")
              else match n with
                | .tool _ => .error ("cannot touch " ++ quoted path ++ ": " ++ FileError.description .denied)
                | _ => .ok (fs, "")
            | .error e =>
              if o.has 'c' then
                if e = .notFound then .ok (fs, "") else .error ("setting times of " ++ quoted path ++ ": " ++ e.description)
              else match fs.openToWrite cwd path (0o666 &&& (0o777 ^^^ mask)) false with
                | .ok (fs, _) => .ok (fs, "")
                | .error .isDirectory => .error ("setting times of " ++ quoted path ++ ": " ++ FileError.description .notFound)
                | .error e => .error ("cannot touch " ++ quoted path ++ ": " ++ e.description)) o.operands 0

end JobShell.Machine.Tool
