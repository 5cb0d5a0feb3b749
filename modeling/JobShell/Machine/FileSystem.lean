import JobShell.System

/-!
# Files and directories

A file system is an array of nodes, and node 0 is the root directory. A path is followed one name at a time, and each directory
on the way must be open to the owner. Each symbolic link that is followed costs one of forty; a path that needs more has too
many links. A directory that was removed keeps its node, so that a process can stay in it, but no path leads to it any more
and nothing can be made in it. Names and texts are octets.
-/

namespace JobShell.Machine

/-- The place of a node. -/
abbrev Inode := Nat

/-- What can be opened and is kept nowhere: nothing at all, an endless supply of zeros, a place that is always full, the terminal,
or what a descriptor of the process leads to already. -/
inductive Device where
  | nothing | zeros | full | terminal
  | descriptor (d : Descriptor)
  deriving DecidableEq, Repr

/-- What a place of the file system holds. `mode` says what the owner may do with it, in three octal digits of which the first
counts. A queue passes on what is written to it. -/
inductive Node where
  | directory (parent : Inode) (entries : List (String × Inode)) (mode : Nat)
  | file (text : String) (mode : Nat)
  | link (target : String)
  | tool (name : String)
  | device (d : Device)
  | queue (mode : Nat)
  deriving Repr

namespace Node

/-- What the owner may do with the node. -/
def mode : Node → Nat
  | .directory _ _ mode | .file _ mode | .queue mode => mode
  | .link _ => 0o777
  | .tool _ => 0o755
  | .device _ => 0o666

/-- The owner may read the node. -/
def isReadable (n : Node) : Bool := n.mode / 0o400 % 2 == 1

/-- The owner may write the node. -/
def isWritable (n : Node) : Bool := n.mode / 0o200 % 2 == 1

/-- The owner may run the node, or go through it. -/
def isPassable (n : Node) : Bool := n.mode / 0o100 % 2 == 1

/-- The node is a directory. -/
def isDirectory : Node → Bool
  | .directory .. => true
  | _ => false

/-- The node is a file. -/
def isFile : Node → Bool
  | .file .. | .tool _ => true
  | _ => false

/-- The node with another mode. -/
def withMode (mode : Nat) : Node → Node
  | .directory parent entries _ => .directory parent entries mode
  | .file text _ => .file text mode
  | .queue _ => .queue mode
  | n => n

end Node

/-- All nodes. -/
structure FileSystem where
  nodes : Array Node := #[.directory 0 [] 0o755]

namespace FileSystem

/-- The longest path and the longest name, in octets. -/
def maxPath : Nat := 4095
def maxName : Nat := 255

/-- How many symbolic links one path may lead through. -/
def maxLinks : Nat := 40

/-- The node at a place. -/
def node? (fs : FileSystem) (i : Inode) : Option Node := fs.nodes[i]?

/-- The file system with a node replaced. -/
def setNode (fs : FileSystem) (i : Inode) (n : Node) : FileSystem := { nodes := fs.nodes.setIfInBounds i n }

/-- The path begins at the root. -/
def isAbsolute (path : String) : Bool := path.toList.head? == some '/'

/-- The path has a slash at its end. -/
def endsInSlash (path : String) : Bool := path.toList.getLast? == some '/'

/-- The names that a path leads through. A slash at its end asks for a directory. -/
def names (path : String) : List String :=
  (path.splitOn "/").filter (· != "") ++ if endsInSlash path then ["."] else []

/-- Follows names from a directory on, through at most `links` symbolic links. `last` says whether a link at the very end is
followed too. -/
def walk (fs : FileSystem) (last : Bool) (links : Nat) (at_ : Inode) (path : List String) : Except FileError Inode :=
  match path with
  | [] => .ok at_
  | name :: rest =>
    match fs.node? at_ with
    | some (.directory parent entries mode) =>
      if !(Node.directory parent entries mode).isPassable then .error .denied
      else if name == "." then fs.walk last links at_ rest
      else if name == ".." then fs.walk last links parent rest
      else if maxName < name.length then .error .nameTooLong
      else match entries.lookup name with
        | none => .error .notFound
        | some i =>
          match fs.node? i with
          | some (.link target) =>
            if rest.isEmpty && !last then .ok i
            else match links with
              | 0 => .error .tooManyLinks
              | links + 1 => fs.walk last links (if isAbsolute target then 0 else at_) (names target ++ rest)
          | _ => fs.walk last links i rest
    | _ => .error .notDirectory
termination_by (links, path.length)

/-- Why a path as such cannot be followed. -/
def fault? (path : String) : Option FileError :=
  if path.toList.contains '\x00' then some .containsNul
  else if path.isEmpty then some .notFound
  else if maxPath < path.length then some .nameTooLong
  else none

/-- The node that a path leads to, from a working directory. -/
def resolve (fs : FileSystem) (cwd : Inode) (path : String) (last : Bool) : Except FileError Inode :=
  match fault? path with
  | some e => .error e
  | none => fs.walk last maxLinks (if isAbsolute path then 0 else cwd) (names path)

/-- The node that a path leads to, with what it holds. -/
def lookUp (fs : FileSystem) (cwd : Inode) (path : String) (last : Bool) : Except FileError (Inode × Node) := do
  let i ← fs.resolve cwd path last
  match fs.node? i with
  | some n => .ok (i, n)
  | none => .error .notFound

/-- What a path leads to, links followed. -/
def nodeAt? (fs : FileSystem) (cwd : Inode) (path : String) : Option Node := ((fs.lookUp cwd path true).toOption).map (·.2)

/-- The directory that a path leads to, which must be open to the owner. -/
def directory (fs : FileSystem) (cwd : Inode) (path : String) : Except FileError Inode := do
  let (i, n) ← fs.lookUp cwd path true
  if !n.isDirectory then .error .notDirectory else if n.isPassable then .ok i else .error .denied

/-- The text of the file that a path leads to. -/
def text (fs : FileSystem) (cwd : Inode) (path : String) : Except FileError String := do
  let (_, n) ← fs.lookUp cwd path true
  if !n.isReadable then .error .denied
  else match n with
    | .file text _ => .ok text
    | .directory .. => .error .isDirectory
    | _ => .ok ""

/-- A path leads to something. -/
def exists? (fs : FileSystem) (cwd : Inode) (path : String) : Bool := (fs.resolve cwd path true).isOk

/-- The names in a directory and what they lead to. -/
def entries (fs : FileSystem) (i : Inode) : List (String × Inode) :=
  match fs.node? i with
  | some (.directory _ entries _) => entries
  | _ => []

/-- The path of a directory, unless it was removed. At most `depth` names are put together. -/
def pathFrom (fs : FileSystem) : (depth : Nat) → Inode → List String → Except FileError String
  | 0, _, _ => .error .notFound
  | depth + 1, i, below =>
    if i = 0 then .ok ("/" ++ "/".intercalate below)
    else match fs.node? i with
      | some (.directory parent ..) =>
        match (fs.entries parent).find? (·.2 == i) with
        | some (name, _) => fs.pathFrom depth parent (name :: below)
        | none => .error .notFound
      | _ => .error .notFound

/-- The path of a directory. -/
def pathOf (fs : FileSystem) (i : Inode) : Except FileError String := fs.pathFrom (fs.nodes.size + 1) i []

/-- The directory and the name at the end of a path, for something that need not be there. A link with that name is not
followed. -/
def place (fs : FileSystem) (cwd : Inode) (path : String) : Except FileError (Inode × String) :=
  match fault? path, (names path).reverse with
  | some e, _ => .error e
  | none, [] => .error .exists
  | none, name :: above => do
    let dir ← fs.walk true maxLinks (if isAbsolute path then 0 else cwd) above.reverse
    match fs.node? dir with
    | some n =>
      if !n.isDirectory then .error .notDirectory
      else if !n.isPassable then .error .denied
      else if maxName < name.length then .error .nameTooLong
      else .ok (dir, name)
    | none => .error .notFound

/-- The directory and the name at which a file is made that a path leads to, through links that lead nowhere yet. -/
def creationPlace (fs : FileSystem) : (links : Nat) → (cwd : Inode) → (path : String) → Except FileError (Inode × String)
  | 0, _, _ => .error .tooManyLinks
  | links + 1, cwd, path => do
    let (dir, name) ← fs.place cwd path
    match ((fs.entries dir).lookup name).bind fs.node? with
    | some (.link target) => fs.creationPlace links dir target
    | _ => .ok (dir, name)

/-- The file system with the entries of a directory changed, if it may be changed. -/
def changeEntries (fs : FileSystem) (dir : Inode) (change : List (String × Inode) → List (String × Inode)) :
    Except FileError FileSystem :=
  match fs.node? dir with
  | some (.directory parent entries mode) =>
    if (Node.directory parent entries mode).isWritable then .ok (fs.setNode dir (.directory parent (change entries) mode))
    else .error .denied
  | _ => .error .notDirectory

/-- Puts a new node into a directory under a name. -/
def addNode (fs : FileSystem) (dir : Inode) (name : String) (node : Node) : Except FileError (FileSystem × Inode) := do
  if !(fs.pathOf dir).isOk then .error .notFound
  else if name == "." || name == ".." || ((fs.entries dir).lookup name).isSome then .error .exists
  else
    let i := fs.nodes.size
    let fs ← ({ nodes := fs.nodes.push node } : FileSystem).changeEntries dir (· ++ [(name, i)])
    .ok (fs, i)

/-- Makes something new at a path. -/
def create (fs : FileSystem) (cwd : Inode) (path : String) (node : Inode → Node) : Except FileError (FileSystem × Inode) := do
  let (dir, name) ← fs.place cwd path
  fs.addNode dir name (node dir)

/-- The path without slashes at its end. -/
def withoutSlashes (path : String) : String := String.ofList (path.toList.reverse.dropWhile (· == '/')).reverse

/-- Makes an empty directory. -/
def makeDirectory (fs : FileSystem) (cwd : Inode) (path : String) (mode : Nat) : Except FileError FileSystem :=
  if path.isEmpty then .error .notFound
  else (fs.create cwd (if (withoutSlashes path).isEmpty then "/" else withoutSlashes path) fun dir =>
    .directory dir [] mode).map (·.1)

/-- Makes a directory and the ones above it, where they are missing. -/
def makeDirectories (fs : FileSystem) (cwd : Inode) (path : String) (mode : Nat) : Except FileError FileSystem :=
  match fault? path with
  | some e => .error e
  | none => go fs (if isAbsolute path then 0 else cwd) ((path.splitOn "/").filter (· != ""))
where
  /-- One directory after the other. -/
  go (fs : FileSystem) (at_ : Inode) : List String → Except FileError FileSystem
    | [] => .ok fs
    | name :: rest =>
      match fs.directory at_ name with
      | .ok i => go fs i rest
      | .error .notFound => do
        let (fs, i) ← fs.create at_ name fun dir => .directory dir [] mode
        go fs i rest
      | .error e => .error e

/-- Opens a file to be written, and makes it with a mode where it is missing. An existing text is done away with only if
`empties` is set. -/
def openToWrite (fs : FileSystem) (cwd : Inode) (path : String) (mode : Nat) (empties : Bool) :
    Except FileError (FileSystem × Inode) :=
  match fs.lookUp cwd path true with
  | .ok (i, n) =>
    if n.isDirectory then .error .isDirectory
    else if !n.isWritable then .error .denied
    else match n with
      | .file text mode => .ok (fs.setNode i (.file (if empties then "" else text) mode), i)
      | _ => .ok (fs, i)
  | .error .notFound =>
    if path.isEmpty then .error .notFound
    else if endsInSlash path then .error .isDirectory
    else do
      let (dir, name) ← fs.creationPlace maxLinks cwd path
      fs.addNode dir name (.file "" mode)
  | .error e => .error e

/-- Writes into a file from a place on. What lies between the old end and that place becomes zeros. -/
def writeAt (fs : FileSystem) (i : Inode) (offset : Nat) (more : String) : FileSystem :=
  match fs.node? i with
  | some (.file text mode) =>
    if offset = text.length then fs.setNode i (.file (text ++ more) mode)
    else
      let cs := text.toList
      let before := cs.take offset ++ List.replicate (offset - cs.length) '\x00'
      fs.setNode i (.file (String.ofList (before ++ more.toList ++ cs.drop (offset + more.length))) mode)
  | _ => fs

/-- The number of octets in a file. -/
def size (fs : FileSystem) (i : Inode) : Nat :=
  match fs.node? i with
  | some (.file text _) => text.length
  | _ => 0

/-- Writes a whole file. -/
def writeFile (fs : FileSystem) (cwd : Inode) (path : String) (mode : Nat) (text : String) : Except FileError FileSystem := do
  let (fs, i) ← fs.openToWrite cwd path mode true
  .ok (fs.writeAt i 0 text)

/-- Takes a name out of its directory. -/
def unlink (fs : FileSystem) (dir : Inode) (name : String) : Except FileError FileSystem :=
  fs.changeEntries dir (·.filter (·.1 != name))

/-- Removes an empty directory. -/
def removeDirectory (fs : FileSystem) (cwd : Inode) (path : String) : Except FileError FileSystem := do
  let last := (((path.splitOn "/").filter (· != "")).getLast?).getD "/"
  if last == "." then .error .invalid
  else if last == ".." then .error .notEmpty
  else
    let (dir, name) ← fs.place cwd (if endsInSlash path then withoutSlashes path else path)
    let i ← fs.walk false maxLinks dir [name]
    match fs.node? i with
    | some (.directory _ [] _) => fs.unlink dir name
    | some (.directory ..) => .error .notEmpty
    | _ => .error .notDirectory

/-- Removes something that is no directory. -/
def removeFile (fs : FileSystem) (cwd : Inode) (path : String) : Except FileError FileSystem := do
  let i ← fs.resolve cwd path false
  match fs.node? i with
  | some (.directory ..) => .error .isDirectory
  | _ =>
    let (dir, name) ← fs.place cwd path
    fs.unlink dir name

/-- One directory lies in another, or is the same; at most `depth` steps up are made. -/
def isWithin (fs : FileSystem) (outer : Inode) : (depth : Nat) → Inode → Bool
  | 0, _ => false
  | depth + 1, i =>
    i == outer || i != 0 && (match fs.node? i with
      | some (.directory parent ..) => fs.isWithin outer depth parent
      | _ => false)

/-- Gives something another name, in place of what has that name. -/
def rename (fs : FileSystem) (cwd : Inode) (source target : String) : Except FileError FileSystem := do
  let (i, n) ← fs.lookUp cwd (withoutSlashes source) false
  let (dir, name) ← fs.place cwd (withoutSlashes source)
  let (targetDir, targetName) ← fs.place cwd (withoutSlashes target)
  let old := (fs.entries targetDir).lookup targetName
  if n.isDirectory && fs.isWithin i (fs.nodes.size + 1) targetDir then .error .invalid
  else if old == some i then .ok fs
  else
    match old.bind fs.node? with
    | some (.directory _ entries _) =>
      if !n.isDirectory then .error .isDirectory
      else if !entries.isEmpty then .error .notEmpty
    | some _ => if n.isDirectory then .error .notDirectory
    | none => if !(fs.pathOf targetDir).isOk then .error .notFound
    let fs ← fs.unlink dir name
    let fs ← fs.changeEntries targetDir fun l => l.filter (·.1 != targetName) ++ [(targetName, i)]
    match n with
    | .directory _ entries mode => .ok (fs.setNode i (.directory targetDir entries mode))
    | _ => .ok fs

/-- Gives something one more name. -/
def addName (fs : FileSystem) (cwd : Inode) (source target : String) : Except FileError FileSystem := do
  let (i, n) ← fs.lookUp cwd source false
  let (dir, name) ← fs.place cwd target
  if ((fs.entries dir).lookup name).isSome then .error .exists
  else if n.isDirectory then .error .notPermitted
  else fs.changeEntries dir (· ++ [(name, i)])

/-- Sets what the owner may do with what a path leads to. -/
def setMode (fs : FileSystem) (cwd : Inode) (path : String) (mode : Nat) : Except FileError FileSystem := do
  let (i, n) ← fs.lookUp cwd path true
  .ok (fs.setNode i (n.withMode mode))

end FileSystem

end JobShell.Machine
