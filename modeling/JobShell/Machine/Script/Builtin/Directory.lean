import JobShell.Machine.Script.Builtin.Basic

/-!
# Tasks on the working directory

A script remembers its working directory as a path, through which it was entered; a step up from it drops the last name of that
path, wherever the directory really lies. Only with `-P` the links in it are followed.
-/

namespace JobShell.Machine.Script

/-- A path from a directory on, with `.` and `..` taken away name by name. -/
def combinedPath (directory path : String) : String :=
  let start := if FileSystem.isAbsolute path then path
    else directory ++ (if FileSystem.endsInSlash directory then "" else "/") ++ path
  -- Two slashes at the front are kept, but not more.
  let front := if start.startsWith "//" && !start.startsWith "///" then "//" else "/"
  let names := ((start.splitOn "/").filter fun n => n != "" && n != ".").foldl
    (fun done n => if n == ".." then done.tail else n :: done) []
  front ++ "/".intercalate names.reverse

/-- What is said of a process without a directory to be in. -/
def lostDirectory (e : FileError) : String := "getcwd() failed: " ++ e.description

/-- Looks where the process is, and complains if that cannot be told. -/
def physicalDirectory (s : State) (next : String → Program) : Program :=
  .consult fun fs cwd =>
    match fs.pathOf cwd with
    | .ok path => next path
    | .error e => .complain (s.message (lostDirectory e)) (next "")

namespace Task

/-- The options of a task on directories: the last one of `-L` and `-P` counts. -/
def followsLinks (found : List (Char × String)) : Bool := (found.getLast?.map (·.1)) == some 'P'

/-- The script in another directory. -/
def moved (s : State) (directory : String) : State :=
  let mark (s : State) (name value : String) : State :=
    let s := s.assign name value
    s.bind { (s.binding? name).getD { name, value := none } with exported := true }
  { (mark (mark s "OLDPWD" s.directory) "PWD" directory) with directory }

/-- Enters a directory, the first one that can be entered of some paths. -/
def enterFirst (t : Task) (physical : Bool) (target : String) : List (String × Bool) → Program
  | [] => t.fault ("can't cd to " ++ target)
  | (path, shows) :: rest =>
    let logical := !physical && (FileSystem.isAbsolute path || !t.state.directory.isEmpty)
    let destination := if logical then combinedPath t.state.directory path else path
    .enter destination fun
      | .error _ => if rest.isEmpty then t.fault ("can't cd to " ++ target) else enterFirst t physical target rest
      | .ok () =>
        let finish (directory : String) : Program :=
          let t := { t with state := moved t.state directory }
          if shows then t.print (directory ++ "\n") 0 else t.done
        if logical then finish destination
        else physicalDirectory { t.state with within := some t.name } finish

/-- Changes the working directory. -/
def changeDirectory (t : Task) : Program :=
  t.options "LP" fun found operands =>
    let s := t.state
    let (target, shows) := match operands with
      | [] => ((s.get? "HOME").getD "", false)
      | "-" :: _ => ((s.get? "OLDPWD").getD "", true)
      | dir :: _ => (dir, false)
    let first := (target.splitOn "/").headD ""
    if FileSystem.isAbsolute target || first == "." || first == ".." then
      enterFirst t (followsLinks found) target [(target, shows)]
    else
      let target := if target.isEmpty then "." else target
      let searched : List (String × Bool) := match s.get? "CDPATH" with
        | none => []
        | some path => (path.splitOn ":").map fun (dir : String) =>
          if dir.isEmpty then (target, shows) else (dir ++ "/" ++ target, true)
      .consult fun fs cwd =>
        let isThere (path : String) : Bool := (fs.nodeAt? cwd path).any (·.isDirectory)
        match searched.find? fun p => isThere p.1 with
        | some p => enterFirst t (followsLinks found) target [p]
        | none => enterFirst t (followsLinks found) target [(target, shows)]

/-- Prints the working directory. -/
def printDirectory (t : Task) : Program :=
  t.options "LP" fun found _ =>
    if followsLinks found then
      physicalDirectory { t.state with within := some t.name } fun path => t.print (path ++ "\n") 0
    else t.print (t.state.directory ++ "\n") 0

end Task

end JobShell.Machine.Script
