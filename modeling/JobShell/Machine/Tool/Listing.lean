import JobShell.Machine.Tool.Input

/-!
# Listing directories

What is listed is first the operands that are no directories, then each directory with what is in it, in the order of the names.
Names stand one a line, or in as many columns as a line holds, or one after the other with commas between. On a terminal names
are quoted where a script would need it.
-/

namespace JobShell.Machine.Tool

/-- How names are arranged. -/
inductive Arrangement where
  | lines | downwards | across | commas
  deriving DecidableEq

/-- How a name is written. -/
inductive NameStyle where
  | plain | quoted | doubled
  deriving DecidableEq

/-- How a directory is listed: which names that begin with a dot are, the order, the marks after names, and the form. -/
structure Listing where
  all : Bool := false
  hidden : Bool := false
  asItself : Bool := false
  recursive : Bool := false
  reversed : Bool := false
  unsorted : Bool := false
  bySize : Bool := false
  marks : Option Char := none
  follows : Bool := false
  arrangement : Arrangement := .lines
  style : NameStyle := .plain

/-- The width of a line with columns. -/
def lineWidth : Nat := 80

/-- The least width of a column, and the distance of places to which tabulators lead. -/
def leastColumn : Nat := 3
def tabDistance : Nat := 8

/-- A name between double quotes, with escapes. -/
def doubleQuoted (name : String) : String :=
  "\"" ++ String.ofList (name.toList.flatMap fun c =>
    if c == '"' || c == '\\' then ['\\', c] else if isVisible c then [c] else escaped c) ++ "\""

/-- The mark of a node after its name. -/
def markOf (kind : Char) : Node → String
  | .directory .. => "/"
  | .link _ => if kind == 'p' then "" else "@"
  | .queue _ => if kind == 'p' then "" else "|"
  | n => if kind == 'F' && n.isFile && n.mode &&& 0o111 != 0 then "*" else ""

/-- The blanks from one place in a line to another, as few as possible. At most `fuel` are put there. -/
def blanksTo : (fuel : Nat) → (at_ upTo : Nat) → String
  | 0, _, _ => ""
  | fuel + 1, at_, upTo =>
    if upTo ≤ at_ then ""
    else if (at_ + 1) / tabDistance < upTo / tabDistance then
      "\t" ++ blanksTo fuel (at_ + tabDistance - at_ % tabDistance) upTo
    else " " ++ blanksTo fuel (at_ + 1) upTo

/-- The column in which the name of some number stands if there are so many columns and names. -/
def columnOf (downwards : Bool) (count columns i : Nat) : Nat :=
  if downwards then i / ((count + columns - 1) / columns) else i % columns

/-- The widths of so many columns for names of these lengths; two blanks follow each column but the last. -/
def columnWidths (downwards : Bool) (columns : Nat) (lengths : List Nat) : List Nat :=
  (List.range columns).map fun k =>
    lengths.zipIdx.foldl (fun width (length, i) =>
      if columnOf downwards lengths.length columns i == k then max width (length + if k + 1 = columns then 0 else 2) else width)
      leastColumn

/-- As many columns as a line holds. -/
def columnCount (downwards : Bool) (lengths : List Nat) : Nat :=
  let most := min (lineWidth / leastColumn) lengths.length
  ((List.range most).reverse.find? fun k =>
    (columnWidths downwards (k + 1) lengths).foldl (· + ·) 0 < lineWidth).map (· + 1) |>.getD 1

/-- Names in columns. -/
def inColumns (downwards : Bool) (names : List String) : String :=
  let lengths := names.map String.length
  let columns := columnCount downwards lengths
  let widths := columnWidths downwards columns lengths
  let rows := (names.length + columns - 1) / columns
  let line (row : Nat) : String :=
    let cells := (List.range columns).filterMap fun k => names[if downwards then k * rows + row else row * columns + k]?
    let (text, _) := (cells.zip widths).zipIdx.foldl (fun ((text, start) : String × Nat) ((cell, width), k) =>
      let isLast := k + 1 = cells.length
      (text ++ cell ++ (if isLast then "" else blanksTo width (start + cell.length) (start + width)), start + width)) ("", 0)
    text ++ "\n"
  String.join ((List.range rows).map line)

/-- Names with commas between them, in lines that are not too long. -/
def withCommas (names : List String) : String :=
  let (text, _) := names.zipIdx.foldl (fun ((text, at_) : String × Nat) (name, k) =>
    if k = 0 then (name, name.length)
    else if lineWidth ≤ at_ + 2 + name.length then (text ++ ",\n" ++ name, name.length)
    else (text ++ ", " ++ name, at_ + 2 + name.length)) ("", 0)
  if names.isEmpty then "" else text ++ "\n"

namespace Listing

/-- Names as they are written, with their marks. Where some are quoted in columns, the others begin with a blank. -/
def written (l : Listing) (names : List (String × Node)) : List String :=
  let someQuoted := l.style == .quoted && (names.any fun n => !isBare n.1.toList)
  let aligned := l.arrangement == .downwards || l.arrangement == .across
  names.map fun (name, node) =>
    let shown := match l.style with
      | .plain => name
      | .quoted => (if someQuoted && aligned && isBare name.toList then " " else "") ++ bare name
      | .doubled => doubleQuoted name
    shown ++ (l.marks.map fun kind => markOf kind node).getD ""

/-- Names in the form of the listing. -/
def arranged (l : Listing) (names : List (String × Node)) : String :=
  let texts := l.written names
  match l.arrangement with
  | .lines => unlines texts
  | .downwards => inColumns true texts
  | .across => inColumns false texts
  | .commas => withCommas texts

/-- The size of a file. -/
def sizeOf : Node → Nat
  | .file text _ => text.length
  | _ => 0

/-- Names in the order of the listing. -/
def sorted (l : Listing) (names : List (String × Node)) : List (String × Node) :=
  let byName := if l.unsorted then names else names.mergeSort fun a b => a.1 ≤ b.1
  let byKey := if l.bySize then byName.mergeSort fun a b => sizeOf b.2 ≤ sizeOf a.2 else byName
  if l.reversed then byKey.reverse else byKey

/-- What is listed of a directory. -/
def contents (l : Listing) (fs : FileSystem) (i : Inode) : List (String × Node) :=
  let node (j : Inode) : Node := (fs.node? j).getD (.directory 0 [] 0)
  let parent := match fs.node? i with
    | some (.directory parent ..) => parent
    | _ => 0
  let found := (fs.entries i).filter (fun e => l.all || l.hidden || !e.1.startsWith ".") |>.map fun e => (e.1, node e.2)
  l.sorted ((if l.all then [(".", node i), ("..", node parent)] else []) ++ found)

/-- A listing of directories with the text before the next one, and what is said of those that cannot be read. -/
structure Result where
  parts : List (Bool × String) := []
  failed : Bool := false
  isFirst : Bool := true

/-- Lists a directory, and what is in it if that is wanted. At most `depth` directories lie within each other. -/
def directory (l : Listing) (call : Call) (fs : FileSystem) (cwd : Inode) (named : Bool) :
    (depth : Nat) → Result → (path : String) → Result
  | 0, r, _ => r
  | depth + 1, r, path =>
    match fs.lookUp cwd path true with
    | .error _ => r
    | .ok (i, n) =>
      if !n.isReadable then
        let said := message call ("cannot open directory " ++ quoted path ++ ": " ++ FileError.description .denied)
        { r with parts := r.parts ++ [(true, said)], failed := true }
      else
        let names := l.contents fs i
        let shownPath := if l.style == .quoted then bare path else path
        let heading := (if r.isFirst then "" else "\n") ++ (if named then shownPath ++ ":\n" else "")
        let r := { r with parts := r.parts ++ [(false, heading ++ l.arranged names)], isFirst := false }
        if !l.recursive then r
        else names.foldl (fun r (name, node) =>
          if node.isDirectory && name != "." && name != ".." then
            l.directory call fs cwd named depth r (if path.endsWith "/" then path ++ name else path ++ "/" ++ name)
          else r) r

/-- Lists operands. -/
def run (l : Listing) (call : Call) (fs : FileSystem) (cwd : Inode) (operands : List String) : Result :=
  let looked := (if operands.isEmpty then ["."] else operands).map fun path =>
    let node : Except FileError Node := match (fs.lookUp cwd path true).map (·.2), (fs.lookUp cwd path false).map (·.2) with
      | .ok n, _ => if l.asItself || (!n.isDirectory && !l.follows) then (fs.lookUp cwd path false).map (·.2) else .ok n
      | .error e, .ok n => if l.follows then .error e else .ok n
      | .error _, .error e => .error e
    (path, node)
  let missing := looked.filterMap fun (path, node) => match node with
    | .error e => some (true, message call ("cannot access " ++ quoted path ++ ": " ++ e.description))
    | .ok _ => none
  let found := looked.filterMap fun (path, node) => node.toOption.map fun n => (path, n)
  let files := l.sorted (found.filter fun f => l.asItself || !f.2.isDirectory)
  let dirs := l.sorted (found.filter fun f => !l.asItself && f.2.isDirectory)
  let start : Result := {
    parts := missing ++ (if files.isEmpty then [] else [(false, l.arranged files)])
    failed := !missing.isEmpty, isFirst := files.isEmpty }
  let named := 1 < looked.length || l.recursive
  dirs.foldl (fun r (path, _) => l.directory call fs cwd named (fs.nodes.size + 1) r path) start

end Listing

/-- Lists directories. -/
def ls (call : Call) : Program :=
  let table : OptionTable := {
    letters := "1aAbBcCdDfFgGhHiIklLmnNopqQrRsStTuUvw:xXZ"
    names := [("all", 'a', .flag), ("almost-all", 'A', .flag), ("directory", 'd', .flag), ("classify", 'F', .optional),
      ("reverse", 'r', .flag), ("recursive", 'R', .flag), ("quote-name", 'Q', .flag), ("literal", 'N', .flag),
      ("dereference", 'L', .flag), ("color", '=', .optional), ("width", 'w', .needed)] }
  withOptions call table 2 fun o => .inspect fun channel => .consult fun fs cwd =>
    let onTerminal := channel 1 == some (.device .terminal)
    let arrangement : Arrangement := match o.lastOf? ['1', 'C', 'x', 'm', 'l', 'g', 'n', 'o'] with
      | some 'C' => .downwards
      | some 'x' => .across
      | some 'm' => .commas
      | some _ => .lines
      | none => if onTerminal then .downwards else .lines
    let l : Listing := {
      all := o.has 'a' || o.has 'f', hidden := o.has 'A', asItself := o.has 'd', recursive := o.has 'R', reversed := o.has 'r'
      unsorted := o.has 'U' || o.has 'f', bySize := o.has 'S', marks := o.lastOf? ['F', 'p'], follows := o.has 'L', arrangement
      style := match o.lastOf? ['Q', 'N'] with
        | some 'Q' => .doubled
        | some _ => .plain
        | none => if onTerminal then .quoted else .plain }
    let r := l.run call fs cwd o.operands
    writeParts call r.parts (.exit (if r.failed then 2 else 0))

end JobShell.Machine.Tool
