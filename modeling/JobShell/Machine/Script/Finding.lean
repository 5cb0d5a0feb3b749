import JobShell.Machine.Script.Builtin.Basic

/-!
# Finding commands

A name of a command is that of a special command, a function, a command that the script runs itself, or a file in one of the
directories of `PATH`. A name with a slash is a path. A file that must not be run, or is none, is passed over, and is the reason
if nothing else is found.
-/

namespace JobShell.Machine.Script

/-- The commands that a script runs itself. -/
def ownNames : List String :=
  specialNames ++ ["[", "alias", "bg", "cd", "chdir", "command", "echo", "false", "fg", "getopts", "hash", "jobs", "kill", "local",
    "printf", "pwd", "read", "test", "true", "type", "ulimit", "umask", "unalias", "wait"]

/-- The commands that take assignments as arguments. -/
def declaringNames : List String := ["alias", "export", "local", "readonly"]

/-- The commands whose faults end a script. -/
def fatalNames : List String := "local" :: specialNames

/-- Where a script looks for commands if it was given no `PATH`. -/
def defaultPath : String := "/usr/local/sbin:/usr/local/bin:/usr/sbin:/usr/bin:/sbin:/bin"

/-- The directories in which a script looks for commands. -/
def State.searchPath (s : State) : List String := ((s.get? "PATH").getD "").splitOn ":"

/-- The path of a name in a directory. -/
def pathIn (directory name : String) : String := if directory.isEmpty then name else directory ++ "/" ++ name

/-- The paths at which a command is found and after that, or the reason why it is not. -/
def findIn (fs : FileSystem) (cwd : Inode) (name : String) : List String → (reason : FileError) → Except FileError (List String)
  | [], reason => .error reason
  | dir :: rest, reason =>
    match fs.lookUp cwd (pathIn dir name) true with
    | .error .notFound | .error .notDirectory => findIn fs cwd name rest reason
    | .error e => findIn fs cwd name rest e
    | .ok (_, n) =>
      if n.isFile && n.isPassable then .ok ((dir :: rest).map fun d => pathIn d name) else findIn fs cwd name rest .denied

/-- What is said of a command that cannot be run. -/
def commandFault : FileError → String
  | .notFound | .notDirectory => "not found"
  | e => e.description

/-- The status of a command that cannot be run. -/
def commandStatus (e : FileError) : Nat :=
  if e = .notFound || e = .notDirectory || e = .tooManyLinks || e = .nameTooLong then 127 else 126

/-- What a name stands for. -/
inductive Meaning where
  | special | function (f : Function) | own | file (paths : List String) | unknown (reason : FileError)

/-- What a name stands for in a script, functions left out of account if `plain` is set. -/
def State.meaning (s : State) (fs : FileSystem) (cwd : Inode) (plain : Bool) (name : String) : Meaning :=
  if fatalNames.contains name then .special
  else match if plain then none else s.functions.find? (·.name == name) with
    | some f => .function f
    | none =>
      if ownNames.contains name then .own
      else if name.toList.contains '/' then .file [name]
      else match findIn fs cwd name s.searchPath .notFound with
        | .ok paths => .file paths
        | .error e => .unknown e

/-- The script with note taken of where a command was found. -/
def State.noteFound (s : State) (name : String) (paths : List String) : State :=
  match paths with
  | path :: _ =>
    if name.toList.contains '/' || (s.found.lookup name).isSome then s else { s with found := s.found ++ [(name, path)] }
  | [] => s

namespace Task

/-- What is said of a name, at length or briefly; nothing brief of an unknown one. -/
def description (s : State) (fs : FileSystem) (cwd : Inode) (long : Bool) (name : String) : String × Bool :=
  let say (text brief : String) : String × Bool := ((if long then name ++ text else brief) ++ "\n", true)
  if reservedWords.contains name then say " is a shell keyword" name
  else match s.aliases.lookup name with
    | some value => say (" is an alias for " ++ value) ("alias " ++ name ++ "=" ++ singleQuoted value)
    | none =>
      match s.meaning fs cwd false name with
      | .special => say " is a special shell builtin" name
      | .function _ => say " is a shell function" name
      | .own => say " is a shell builtin" name
      | .file paths =>
        let path := paths.headD name
        if name.toList.contains '/' && !fs.exists? cwd name then (if long then name ++ ": not found\n" else "", false)
        else say (if (s.found.lookup name).isSome then " is a tracked alias for " ++ path else " is " ++ path) path
      | .unknown _ => (if long then name ++ ": not found\n" else "", false)

/-- Describes names, and takes note of where files among them were found. -/
def describe (t : Task) (long : Bool) (names : List String) : Program :=
  .consult fun fs cwd =>
    let (s, text, known) := names.foldl (fun ((s, text, known) : State × String × Bool) name =>
      let (line, isKnown) := description s fs cwd long name
      let s := match s.meaning fs cwd false name with
        | .file paths => s.noteFound name paths
        | _ => s
      (s, text ++ line, known && isKnown)) (t.state, "", true)
    { t with state := s }.print text (if known then 0 else 127)

/-- Lists where commands were found, forgets that, or looks for commands. -/
def hash (t : Task) : Program :=
  t.options "r" fun found names =>
    if !found.isEmpty then { t.state with found := [] }.proceed 0
    else if names.isEmpty then
      let weight (name : String) : Nat := match name.toList with
        | [] => 0
        | c :: cs => (cs.foldl (fun n d => n + d.toNat) (c.toNat * 17)) % Nat.pow 2 15 % 31
      t.print (String.join ((List.range 31).flatMap fun n =>
        ((t.state.found.filter fun f => weight f.1 == n).map fun f => f.2 ++ "\n"))) 0
    else go t names 0
where
  /-- Looks for one command after the other. -/
  go (t : Task) : List String → (status : Nat) → Program
    | [], status => t.state.proceed status
    | name :: rest, status =>
      .consult fun fs cwd =>
        match t.state.meaning fs cwd false name with
        | .unknown e => t.warn (name ++ ": " ++ commandFault e) (go t rest 1)
        | .file paths => go { t with state := t.state.noteFound name paths } rest status
        | _ => go t rest status

end Task

end JobShell.Machine.Script
