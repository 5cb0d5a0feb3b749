import JobShell.Machine.Tool.Directories

/-!
# Tools that copy, move and link

Files are copied, get other names, more names or links that lead to them, and the owner's rights are changed. A target that is a
directory stands for the place in it that has the name of the source.
-/

namespace JobShell.Machine.Tool

/-- The last name of a path. -/
def lastName (path : String) : String :=
  let cs := (FileSystem.withoutSlashes path).toList
  String.ofList (cs.reverse.takeWhile (· != '/')).reverse

/-- The path of a name in a directory. -/
def inDirectory (dir name : String) : String := if dir.endsWith "/" then dir ++ name else dir ++ "/" ++ name

/-- The place that a source goes to: the target itself, or the place in it where it is a directory. -/
def destination (fs : FileSystem) (cwd : Inode) (into : Bool) (source target : String) : String :=
  if into && ((fs.nodeAt? cwd target).map Node.isDirectory).getD false then inDirectory target (lastName source) else target

/-- A change of the file system, with what is said of it on either stream, and whether all of it was done. -/
structure Outcome where
  fs : FileSystem
  said : List (Bool × String) := []
  done : Bool := true

/-- A change that was refused. -/
def Outcome.refused (call : Call) (fs : FileSystem) (reason : String) : Outcome :=
  { fs, said := [(true, message call reason)], done := false }

/-- The source, the target, and what is done on the way from one to the other. -/
abbrev Transfer := FileSystem → Inode → (source target : String) → Outcome

/-- Goes through the sources with a target that is the last operand or was given by an option. `verb` is what is said of a tool
that has nothing to work on. -/
def transferAll (call : Call) (o : Options) (transfer : Transfer) : Program :=
  let go (into : Bool) (sources : List String) (target : String) : Program :=
    forEach (fun source next => .change fun fs cwd =>
      let r := transfer fs cwd source (destination fs cwd into source target)
      (r.fs, writeParts call r.said (next r.done))) sources 0
  match o.value? 't', o.operands.reverse with
  | _, [] => misuse call "missing file operand" 1
  | some dir, _ => .consult fun fs cwd =>
    match fs.lookUp cwd dir true with
    | .error e => refuse call ("target directory " ++ quoted dir ++ ": " ++ e.description) 1
    | .ok (_, n) =>
      if n.isDirectory then go true o.operands dir
      else refuse call ("target directory " ++ quoted dir ++ ": " ++ FileError.description .notDirectory) 1
  | none, [only] => misuse call ("missing destination file operand after " ++ quoted only) 1
  | none, [target, source] => go (!o.has 'T') [source] target
  | none, target :: sources =>
    if o.has 'T' then misuse call ("extra operand " ++ quoted target) 1
    else .consult fun fs cwd =>
      match fs.lookUp cwd target true with
      | .error e => refuse call ("target " ++ quoted target ++ ": " ++ e.description) 1
      | .ok (_, n) =>
        if n.isDirectory then go true sources.reverse target
        else refuse call ("target " ++ quoted target ++ ": " ++ FileError.description .notDirectory) 1

/-! ## Copies -/

/-- How files are copied: directories too, over what is there by force or not at all, and whether each one is named. -/
structure CopyRules where
  recursive : Bool := false
  forced : Bool := false
  keeps : Bool := false
  loud : Bool := false
  mask : Nat := 0o022

/-- Copies what a node that is no directory holds to a place where there may be a file already. -/
def CopyRules.place (k : CopyRules) (call : Call) (fs : FileSystem) (cwd : Inode) (n : Node) (source target : String) :
    Outcome :=
  let said := if k.loud then [(false, quoted source ++ " -> " ++ quoted target ++ "\n")] else []
  match n with
  | .link to_ =>
    match fs.create cwd target fun _ => .link to_ with
    | .ok (fs, _) => { fs, said }
    | .error e => .refused call fs ("cannot create symbolic link " ++ quoted target ++ ": " ++ e.description)
  | _ =>
    if !n.isReadable then .refused call fs ("cannot open " ++ quoted source ++ " for reading: " ++ FileError.description .denied)
    else
      let text := match n with
        | .file text _ => text
        | _ => ""
      match fs.writeFile cwd target (n.mode &&& (0o777 ^^^ k.mask)) text with
      | .ok fs => { fs, said }
      | .error e =>
        let e : FileError := if e = .isDirectory then .notDirectory else e
        .refused call fs ("cannot create regular file " ++ quoted target ++ ": " ++ e.description)

/-- Copies a file or a directory. At most `depth` directories lie within each other; `made` is the first directory that was made,
which is not copied into itself. -/
def CopyRules.copy (k : CopyRules) (call : Call) (cwd : Inode) :
    (depth : Nat) → (made : Option Inode) → FileSystem → (source target : String) → Outcome
  | 0, _, fs, _, _ => { fs }
  | depth + 1, made, fs, source, target =>
    let inside (made : Option Inode) (entries : List (String × Inode)) (start : Outcome) : Outcome :=
      entries.foldl (fun (r : Outcome) (name, i) =>
        if made == some i then r
        else
          let one := k.copy call cwd depth made r.fs (inDirectory source name) (inDirectory target name)
          { fs := one.fs, said := r.said ++ one.said, done := r.done && one.done }) start
    match fs.lookUp cwd source (!k.recursive) with
    | .error e => .refused call fs ("cannot stat " ++ quoted source ++ ": " ++ e.description)
    | .ok (i, .directory _ entries mode) =>
      if !k.recursive then .refused call fs ("-r not specified; omitting directory " ++ quoted source)
      else
        let existing := (fs.lookUp cwd target true).toOption
        match existing with
        | some (j, n) =>
          if !n.isDirectory then
            .refused call fs ("cannot overwrite non-directory " ++ quoted target ++ " with directory " ++ quoted source)
          else inside (made <|> some j) entries { fs }
        | none =>
          match fs.makeDirectory cwd target (mode &&& (0o777 ^^^ k.mask)) with
          | .error e => .refused call fs ("cannot create directory " ++ quoted target ++ ": " ++ e.description)
          | .ok fs =>
            let j := (fs.directory cwd target).toOption
            if j.any fun j => fs.isWithin i (fs.nodes.size + 1) j then
              .refused call fs ("cannot copy a directory, " ++ quoted source ++ ", into itself, " ++ quoted target)
            else inside (made <|> j) entries
              { fs, said := if k.loud then [(false, quoted source ++ " -> " ++ quoted target ++ "\n")] else [] }
    | .ok (i, n) =>
      match fs.lookUp cwd target true, fs.lookUp cwd target false with
      | .ok (j, m), _ =>
        if i = j then .refused call fs (quoted source ++ " and " ++ quoted target ++ " are the same file")
        else if k.keeps then { fs }
        else if m.isDirectory then
          .refused call fs ("cannot overwrite directory " ++ quoted target ++ " with non-directory " ++ quoted source)
        else k.place call fs cwd n source target
      | .error _, .ok _ => .refused call fs ("not writing through dangling symlink " ++ quoted target)
      | .error _, .error _ => k.place call fs cwd n source target
/-- Copies files and directories. -/
def cp (call : Call) : Program :=
  let table : OptionTable := {
    letters := "abdfHilLnPprRst:TuvxZ"
    names := [("recursive", 'r', .flag), ("force", 'f', .flag), ("no-clobber", 'n', .flag), ("verbose", 'v', .flag),
      ("target-directory", 't', .needed), ("no-target-directory", 'T', .flag), ("archive", 'a', .flag),
      ("preserve", 'p', .optional), ("update", 'u', .optional)] }
  withOptions call table 1 fun o => .mask none fun mask =>
    let k : CopyRules := {
      recursive := o.has 'r' || o.has 'R' || o.has 'a', forced := o.has 'f', keeps := o.has 'n', loud := o.has 'v'
      mask := if o.has 'p' || o.has 'a' then 0 else mask }
    transferAll call o fun fs cwd source target => k.copy call cwd (fs.nodes.size + 1) none fs source target

/-! ## Other names -/

/-- Gives a file or a directory another name. -/
def moveOne (call : Call) (keeps loud : Bool) : Transfer := fun fs cwd source target =>
  match fs.lookUp cwd source false with
  | .error e => .refused call fs ("cannot stat " ++ quoted source ++ ": " ++ e.description)
  | .ok (i, n) =>
    let old := (fs.lookUp cwd target false).toOption
    if (old.any fun o => o.1 == i) && !n.isDirectory then
      .refused call fs (quoted source ++ " and " ++ quoted target ++ " are the same file")
    else if keeps && old.isSome then { fs }
    else if n.isDirectory && old.any fun o => !o.2.isDirectory then
      .refused call fs ("cannot overwrite non-directory " ++ quoted target ++ " with directory " ++ quoted source)
    else if !n.isDirectory && old.any fun o => o.2.isDirectory then
      .refused call fs ("cannot overwrite directory " ++ quoted target ++ " with non-directory " ++ quoted source)
    else match fs.rename cwd source target with
      | .ok fs => { fs, said := if loud then [(false, "renamed " ++ quoted source ++ " -> " ++ quoted target ++ "\n")] else [] }
      | .error .invalid =>
        .refused call fs ("cannot move " ++ quoted source ++ " to a subdirectory of itself, " ++ quoted target)
      | .error e => .refused call fs ("cannot move " ++ quoted source ++ " to " ++ quoted target ++ ": " ++ e.description)

/-- Gives files and directories other names. -/
def mv (call : Call) : Program :=
  let table : OptionTable := {
    letters := "bfint:TuvZ"
    names := [("force", 'f', .flag), ("no-clobber", 'n', .flag), ("verbose", 'v', .flag), ("target-directory", 't', .needed),
      ("no-target-directory", 'T', .flag)] }
  withOptions call table 1 fun o =>
    transferAll call o (moveOne call (o.lastOf? ['f', 'i', 'n'] == some 'n') (o.has 'v'))

/-! ## Links -/

/-- Makes a link or one more name. -/
def linkOne (call : Call) (symbolic forced loud : Bool) : Transfer := fun fs cwd source target =>
  let kind := if symbolic then "symbolic" else "hard"
  let arrow := if symbolic then " -> " else " => "
  let failed (e : FileError) : Outcome :=
    let names := if e = .exists || e = .notDirectory && !symbolic then quoted target
      else quoted target ++ arrow ++ quoted source
    .refused call fs ("failed to create " ++ kind ++ " link " ++ names ++ ": " ++ e.description)
  let cleared := if forced then ((fs.removeFile cwd target).toOption).getD fs else fs
  let said := if loud then [(false, quoted target ++ arrow ++ quoted source ++ "\n")] else []
  if symbolic then
    if source.isEmpty then failed .notFound
    else match cleared.create cwd target fun _ => .link source with
      | .ok (fs, _) => { fs, said }
      | .error e => failed e
  else match fs.lookUp cwd source false with
    | .error e => .refused call fs ("failed to access " ++ quoted source ++ ": " ++ e.description)
    | .ok (_, n) =>
      if n.isDirectory then .refused call fs (bare source ++ ": hard link not allowed for directory")
      else match cleared.addName cwd source target with
        | .ok fs => { fs, said }
        | .error e => failed e

/-- Makes links and names. -/
def ln (call : Call) : Program :=
  let table : OptionTable := {
    letters := "bdfFiLnPrst:Tv"
    names := [("symbolic", 's', .flag), ("force", 'f', .flag), ("verbose", 'v', .flag), ("target-directory", 't', .needed),
      ("no-target-directory", 'T', .flag), ("no-dereference", 'n', .flag)] }
  withOptions call table 1 fun o =>
    let o := match o.operands with
      | [only] => if (o.value? 't').isNone then { o with operands := [only, "."] } else o
      | _ => o
    transferAll call o (linkOne call (o.has 's') (o.has 'f') (o.has 'v'))

/-! ## Rights and real names -/

/-- Changes the rights of what a path leads to, and of all that is in it if that is wanted. At most `depth` directories lie within
each other. -/
def changeMode (call : Call) (word : String) (mask : Nat) (recursive : Bool) (said : Option Bool) (cwd : Inode) :
    (depth : Nat) → FileSystem → (path : String) → Outcome
  | 0, fs, _ => { fs }
  | depth + 1, fs, path =>
    match fs.lookUp cwd path true, fs.lookUp cwd path false with
    | .error _, .ok _ => .refused call fs ("cannot operate on dangling symlink " ++ quoted path)
    | .error e, _ => .refused call fs ("cannot access " ++ quoted path ++ ": " ++ e.description)
    | .ok (i, n), _ =>
      let mode := (newRights? mask n.isDirectory word n.mode).getD n.mode
      let text (m : Nat) : String :=
        "0" ++ String.ofList (List.replicate (3 - (Nat.toDigits 8 m).length) '0' ++ Nat.toDigits 8 m) ++ " (" ++
          String.join ([m / 64, m / 8, m].map shownRights) ++ ")"
      let line := if mode = n.mode then
          (if said == some true then "mode of " ++ quoted path ++ " retained as " ++ text mode ++ "\n" else "")
        else if said.isSome then "mode of " ++ quoted path ++ " changed from " ++ text n.mode ++ " to " ++ text mode ++ "\n"
        else ""
      match n with
      | .tool _ => .refused call fs ("changing permissions of " ++ quoted path ++ ": " ++ FileError.description .notPermitted)
      | _ =>
        let start : Outcome := { fs := fs.setNode i (n.withMode mode), said := if line.isEmpty then [] else [(false, line)] }
        if !recursive then start
        else (fs.entries i).foldl (fun (r : Outcome) entry =>
          let one := changeMode call word mask recursive said cwd depth r.fs (inDirectory path entry.1)
          { fs := one.fs, said := r.said ++ one.said, done := r.done && one.done }) start
where
  /-- The rights of one class, with dashes for what is missing. -/
  shownRights (rights : Nat) : String :=
    (if rights / 4 % 2 = 1 then "r" else "-") ++ (if rights / 2 % 2 = 1 then "w" else "-") ++ if rights % 2 = 1 then "x" else "-"

/-- Changes rights. A first word such as `-x` takes rights away and is no option. -/
def chmod (call : Call) : Program :=
  let takes (w : String) : Bool := match w.toList with
    | '-' :: c :: _ => "rwxX".toList.contains c
    | _ => false
  let arguments := match call.arguments with
    | first :: rest => if takes first then "--" :: first :: rest else first :: rest
    | [] => []
  let table : OptionTable := {
    letters := "Rcfv"
    names := [("recursive", 'R', .flag), ("verbose", 'v', .flag), ("changes", 'c', .flag), ("silent", 'f', .flag),
      ("quiet", 'f', .flag)] }
  withOptions { call with arguments } table 1 fun o => .mask none fun mask =>
    match o.operands with
    | [] => misuse call "missing operand" 1
    | [word] => misuse call ("missing operand after " ++ cited word) 1
    | word :: paths =>
      if (newRights? mask true word 0).isNone then misuse call ("invalid mode: " ++ cited word) 1
      else
        let said := (o.lastOf? ['c', 'v']).map (· == 'v')
        forEach (fun path next => .change fun fs cwd =>
          let r := changeMode call word mask (o.has 'R') said cwd (fs.nodes.size + 1) fs path
          (r.fs, writeParts call (if o.has 'f' then r.said.filter (!·.1) else r.said) (next r.done))) paths 0

/-- Where a path leads, without links. What need not be there may be missing at its end. -/
def realPath (fs : FileSystem) (cwd : Inode) (missing : Bool) : (links : Nat) → (path : String) → Except FileError String
  | 0, _ => .error .tooManyLinks
  | links + 1, path =>
    match fs.lookUp cwd path true with
    | .ok (i, n) =>
      if n.isDirectory then fs.pathOf i else do
        let (dir, name) ← fs.place cwd (FileSystem.withoutSlashes path)
        match ((fs.entries dir).lookup name).bind fs.node? with
        | some (.link target) =>
          let above ← fs.pathOf dir
          realPath fs cwd missing links (if FileSystem.isAbsolute target then target else inDirectory above target)
        | _ => do
          let above ← fs.pathOf dir
          .ok (inDirectory above name)
    | .error .notFound =>
      if !missing || path.isEmpty then .error .notFound
      else do
        let (dir, name) ← fs.creationPlace FileSystem.maxLinks cwd (FileSystem.withoutSlashes path)
        let above ← fs.pathOf dir
        .ok (inDirectory above name)
    | .error e => .error e

/-- Prints where links lead. -/
def readlink (call : Call) : Program :=
  let table : OptionTable := {
    letters := "efmnqsvz"
    names := [("canonicalize", 'f', .flag), ("no-newline", 'n', .flag), ("verbose", 'v', .flag), ("zero", 'z', .flag)] }
  withOptions call table 1 fun o =>
    if o.operands.isEmpty then misuse call "missing operand" 1
    else
      let ending := if o.has 'z' then "\x00" else if o.has 'n' && o.operands.length = 1 then "" else "\n"
      forEach (fun path next => .consult fun fs cwd =>
        let found : Except FileError String :=
          if o.has 'f' || o.has 'e' || o.has 'm' then realPath fs cwd (!o.has 'e') FileSystem.maxLinks path
          else match fs.lookUp cwd path false with
            | .ok (_, .link target) => .ok target
            | .ok _ => .error .invalid
            | .error e => .error e
        match found with
        | .ok target => .say call.name (target ++ ending) (next true)
        | .error e => .complain (if o.has 'v' then message call (bare path ++ ": " ++ e.description) else "") (next false))
        o.operands 0

/-- Prints paths without links. -/
def realpath (call : Call) : Program :=
  let table : OptionTable := {
    letters := "eLmPqsz", names := [("quiet", 'q', .flag), ("zero", 'z', .flag), ("canonicalize-existing", 'e', .flag)] }
  withOptions call table 1 fun o =>
    if o.operands.isEmpty then misuse call "missing operand" 1
    else forEach (fun path next => .consult fun fs cwd =>
      match realPath fs cwd (!o.has 'e') FileSystem.maxLinks path with
      | .ok found => .say call.name (found ++ (if o.has 'z' then "\x00" else "\n")) (next true)
      | .error e => .complain (if o.has 'q' then "" else message call (bare path ++ ": " ++ e.description)) (next false))
      o.operands 0

end JobShell.Machine.Tool
