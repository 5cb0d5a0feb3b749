import JobShell.Machine.Process
import JobShell.Text.Octets

/-!
# A fresh machine

A machine begins with the directories that every machine has, its tools under `/usr/bin`, which `/bin` leads to as well, and an
empty home directory, in which the shell starts. It has no process but the shell's.
-/

namespace JobShell.Machine

namespace FileSystem

/-- The file system after a change that may fail; it stays as it is then. -/
def attempt (fs : FileSystem) (change : FileSystem → Except FileError FileSystem) : FileSystem :=
  match change fs with
  | .ok fs => fs
  | .error _ => fs

/-- The file system with a directory and the ones above it, which all have the same rights. -/
def withDirectory (fs : FileSystem) (cwd : Inode) (path : String) (mode : Nat) : FileSystem :=
  fs.attempt (·.makeDirectories cwd path mode)

/-- The file system with something new at a path; the directories above it are made where they are missing. -/
def withNode (fs : FileSystem) (cwd : Inode) (path : String) (node : Node) : FileSystem :=
  let above := ((path.splitOn "/").reverse.drop 1).reverse
  let fs := if above.isEmpty then fs else fs.withDirectory cwd ("/".intercalate above) 0o755
  fs.attempt fun fs => (fs.create cwd path fun _ => node).map (·.1)

/-- The file system with other rights for what a path leads to. -/
def withMode (fs : FileSystem) (path : String) (mode : Nat) : FileSystem := fs.attempt fun fs => fs.setMode 0 path mode

/-- The directories of every machine that only its keeper changes, and the ones that everybody may change. -/
def closedDirectories : List String := ["/", "/usr", "/usr/bin", "/dev", "/dev/fd", "/etc", "/home", "/proc", "/var", "/run"]
def openDirectories : List String := ["/tmp", "/var/tmp", "/dev/shm"]

/-- The devices of every machine by their names. -/
def devices : List (String × Device) :=
  [("null", .nothing), ("zero", .zeros), ("full", .full), ("tty", .terminal), ("stdin", .descriptor 0),
    ("stdout", .descriptor 1), ("stderr", .descriptor 2)] ++
    (List.range 10).map fun d => ("fd/" ++ toString d, .descriptor d)

/-- The file system of every machine. -/
def basic : FileSystem :=
  let fs := (closedDirectories ++ openDirectories).foldl (fun (fs : FileSystem) path => fs.withDirectory 0 path 0o755) {}
  let fs := Tool.table.foldl (fun (fs : FileSystem) tool => fs.withNode 0 ("/usr/bin/" ++ tool.1) (.tool tool.1)) fs
  let fs := devices.foldl (fun (fs : FileSystem) d => fs.withNode 0 ("/dev/" ++ d.1) (.device d.2)) fs
  let fs := fs.withNode 0 "/bin" (.link "usr/bin")
  let fs := closedDirectories.foldl (fun (fs : FileSystem) path => fs.withMode path 0o555) fs
  openDirectories.foldl (fun (fs : FileSystem) path => fs.withMode path 0o777) fs

end FileSystem

/-- A machine whose shell starts in an empty home directory. -/
def atHome (home : String) : Machine :=
  let tree := (FileSystem.basic.withMode "/home" 0o755).withDirectory 0 home 0o755
  let tree := tree.withMode "/home" 0o555
  { tree, shell := { directory := (tree.directory 0 home).toOption.getD 0 } }

/-- The machine with a change of its files, made from the shell's directory. -/
def withFiles (m : Machine) (change : FileSystem → Inode → FileSystem) : Machine :=
  { m with tree := change m.tree m.shell.directory }

/-- The machine with a text to be read from the shell's input. -/
def withInput (m : Machine) (text : String) : Machine :=
  let (m, pipe) := m.addPipe (Octets.ofText text).toList
  m.modifyShell fun s => { s with files := s.files.put 0 (.pipeRead pipe) }

/-- The machine with a terminal before the shell, which leads its session, and somebody at it who follows a list. -/
def withTerminal (m : Machine) (dialog : List (String × String)) : Machine :=
  let dialog := dialog.map fun d => (Octets.ofText d.1, Octets.ofText d.2)
  { m with
    terminal := some { foreground := m.shell.pid, owner := some m.shell.pid, dialog }
    shell := { m.shell with files := .onTerminal, group := m.shell.pid, session := m.shell.pid } }

/-- The environment in which a shell starts. -/
def basicEnvironment (home : String) : Environment := [("HOME", home), ("PATH", "/usr/bin:/bin")]

end JobShell.Machine
