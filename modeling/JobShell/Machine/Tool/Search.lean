import JobShell.Machine.Regex.Reading
import JobShell.Machine.Tool.Input

/-!
# Searching lines

Lines that a pattern fits are shown, counted, or only asked for. Several patterns fit where one of them does. Lines around the
shown ones may be shown too, and where these do not touch, a mark stands between them.
-/

namespace JobShell.Machine.Tool

/-- What lines are searched for, and how: the expressions, whether case counts, whether a whole word or the whole line must fit,
and whether the lines are wanted that do not fit. -/
structure Query where
  patterns : List Regex
  folds : Bool := false
  words : Bool := false
  lines : Bool := false
  inverts : Bool := false

namespace Query

/-- A stretch of a line is one that is wanted. -/
def accepts (q : Query) (s : Regex.Subject) (first last : Nat) : Bool :=
  (!q.lines || (first == 0 && last == s.line.size)) && (!q.words || (!s.wordBefore first && !s.wordAfter last))

/-- The first stretch from a place on that a pattern fits, the longest one of several. -/
def find? (q : Query) (line : String) (from_ : Nat) : Option Regex.Found :=
  let s : Regex.Subject := { line := line.toList.toArray, folds := q.folds }
  let found := q.patterns.filterMap fun r => r.find? s (q.accepts s) (s.line.size + 1 - from_) from_
  found.foldl (fun (best : Option Regex.Found) f =>
    match best with
    | some b => if f.first < b.first || (f.first == b.first && b.last < f.last) then some f else best
    | none => some f) none

/-- A line is one that is wanted. -/
def wants (q : Query) (line : String) : Bool := (q.find? line 0).isSome != q.inverts

/-- The stretches of a line that are not empty, with their places. At most `steps` are looked for. -/
def stretches (q : Query) (line : String) : (steps : Nat) → (from_ : Nat) → List (Nat × String)
  | 0, _ => []
  | steps + 1, i =>
    match q.find? line i with
    | none => []
    | some f =>
      if f.last = f.first then (if f.first < line.length then q.stretches line steps (f.first + 1) else [])
      else (f.first, String.ofList ((line.toList.drop f.first).take (f.last - f.first))) :: q.stretches line steps f.last

end Query

/-- What is shown: names, numbers and places before lines, lines around, and how many at most; or only counts, names or
nothing. -/
structure Showing where
  names : Bool := false
  numbers : Bool := false
  places : Bool := false
  only : Bool := false
  counts : Bool := false
  listed : Option Bool := none
  quiet : Bool := false
  before : Nat := 0
  after : Nat := 0
  most : Option Nat := none
  asText : Bool := false

/-- Where a search stands: the lines counted, their number and the octets before them, the lines that were not shown, how many
more are to be shown after one that was wanted, the last one that was shown, and whether the input is no text. -/
structure SearchState where
  wanted : Nat := 0
  number : Nat := 0
  place : Nat := 0
  held : List (Nat × Nat × String) := []
  owed : Nat := 0
  shown : Option Nat := none
  isBinary : Bool := false

namespace Showing

/-- Lines themselves are shown. -/
def showsLines (w : Showing) : Bool := !w.counts && w.listed.isNone && !w.quiet

/-- What stands before a line. -/
def head (w : Showing) (file : String) (mark : String) (number place : Nat) : String :=
  (if w.names then file ++ mark else "") ++ (if w.numbers then toString number ++ mark else "") ++
    if w.places then toString place ++ mark else ""

/-- A search has come far enough. -/
def hasEnough (w : Showing) (s : SearchState) : Bool :=
  ((w.quiet || w.listed.isSome || (s.isBinary && w.showsLines)) && 0 < s.wanted) ||
    (w.most.any (· ≤ s.wanted) && s.owed = 0)

/-- A line that was wanted, as it is shown. -/
def wantedLine (w : Showing) (q : Query) (file line : String) (number place : Nat) : String :=
  if w.only then
    if q.inverts then ""
    else String.join ((q.stretches line (line.length + 1) 0).map fun (at_, text) =>
      w.head file ":" number (place + at_) ++ text ++ "\n")
  else w.head file ":" number place ++ line ++ "\n"

/-- The search of one line after the other. -/
def filter (w : Showing) (q : Query) (file : String) : LineFilter SearchState where
  hasEnough := w.hasEnough
  look s text := { s with isBinary := s.isBinary || (!w.asText && text.toList.contains '\x00') }
  step s line :=
    let size := line.length
    let line := (splitEnd line).1
    let number := s.number + 1
    let passed : SearchState := { s with number, place := s.place + size }
    if w.most.all (s.wanted < ·) && q.wants line then
      if !w.showsLines || s.isBinary then ({ passed with wanted := s.wanted + 1 }, "")
      else
        let first := (s.held.head?.map (·.1)).getD number
        let gap := (0 < w.before || 0 < w.after) && s.shown.any fun n => n + 1 < first
        let around := String.join (s.held.map fun (n, place, text) => w.head file "-" n place ++ text ++ "\n")
        ({ passed with wanted := s.wanted + 1, held := [], owed := w.after, shown := some number },
          (if gap then "--\n" else "") ++ (if w.only then "" else around) ++ w.wantedLine q file line number s.place)
    else if 0 < s.owed then
      ({ passed with owed := s.owed - 1, shown := some number },
        if w.only then "" else w.head file "-" number s.place ++ line ++ "\n")
    else
      let held := (s.held ++ [(number, s.place, line)])
      ({ passed with held := held.drop (held.length - w.before) }, "")

/-- What is shown of an input as a whole, after its lines. -/
def summary (w : Showing) (file : String) (s : SearchState) : String :=
  if w.quiet then ""
  else match w.listed with
    | some wanted => if (0 < s.wanted) == wanted then file ++ "\n" else ""
    | none => if w.counts then (if w.names then file ++ ":" else "") ++ toString s.wanted ++ "\n" else ""

end Showing

/-- The options of a search. -/
def searchTable : OptionTable where
  letters := "A:B:C:EFGHILPTUVZabce:f:hilm:noqrRsvwxy0123456789"
  names := [("extended-regexp", 'E', .flag), ("fixed-strings", 'F', .flag), ("basic-regexp", 'G', .flag),
    ("regexp", 'e', .needed), ("file", 'f', .needed), ("ignore-case", 'i', .flag), ("no-ignore-case", '+', .flag),
    ("word-regexp", 'w', .flag), ("line-regexp", 'x', .flag), ("no-messages", 's', .flag), ("invert-match", 'v', .flag),
    ("max-count", 'm', .needed), ("byte-offset", 'b', .flag), ("line-number", 'n', .flag), ("with-filename", 'H', .flag),
    ("no-filename", 'h', .flag), ("only-matching", 'o', .flag), ("quiet", 'q', .flag), ("silent", 'q', .flag),
    ("text", 'a', .flag), ("recursive", 'r', .flag), ("files-with-matches", 'l', .flag), ("files-without-match", 'L', .flag),
    ("count", 'c', .flag), ("before-context", 'B', .needed), ("after-context", 'A', .needed), ("context", 'C', .needed),
    ("color", '=', .optional), ("colour", '=', .optional), ("line-buffered", '.', .flag)]

/-- What is said of a search that is asked for in a wrong way. -/
def searchUsage (call : Call) : String := "Usage: " ++ call.name ++ " [OPTION]... PATTERNS [FILE]...\n" ++ advice call

/-- All files under a directory, with the names they are shown by. At most `depth` directories lie within each other. -/
def filesWithin (fs : FileSystem) (cwd : Inode) : (depth : Nat) → (path : String) → List String
  | 0, _ => []
  | depth + 1, path =>
    match fs.nodeAt? cwd path with
    | some (.directory _ entries _) => entries.flatMap fun (name, i) =>
      let below := if path.endsWith "/" then path ++ name else path ++ "/" ++ name
      match fs.node? i with
      | some (.file ..) => [below]
      | some (.directory ..) => filesWithin fs cwd depth below
      | _ => []
    | _ => [path]

/-- Searches one file after the other. `found` says that something was found, and `failed` that a file could not be read. -/
def searchFiles (call : Call) (w : Showing) (q : Query) (silent : Bool) :
    List String → (found failed : Bool) → Program
  | [], found, failed => .exit (if failed && !(w.quiet && found) then 2 else if found then 0 else 1)
  | file :: rest, found, failed =>
    let name := if file == "-" then "(standard input)" else file
    let report (e : FileError) (found : Bool) : Program :=
      .complain (if silent then "" else message call (name ++ ": " ++ e.description)) (searchFiles call w q silent rest found true)
    openInput file fun
      | .error e => report e found
      | .ok d => filterInput call (w.filter q name) d (fun s e => closeInput file d (
          let selected := match w.listed with
            | some wanted => (0 < s.wanted) == wanted
            | none => 0 < s.wanted
          match e with
          | some e => report e (found || selected)
          | none =>
            if w.quiet && selected then .exit 0
            else .say call.name (w.summary name s)
              (.complain (if s.isBinary && w.showsLines && 0 < s.wanted then message call (name ++ ": binary file matches") else "")
                (searchFiles call w q silent rest (found || selected) failed)))) Program.endless {} []

/-- Reads the patterns in files. -/
def withPatternFiles (call : Call) : List String → List String → (List String → Program) → Program
  | [], texts, next => next texts
  | file :: rest, texts, next => readInput file fun i =>
    match i.fault with
    | some (.opening e) | some (.reading e) => refuse call (i.file ++ ": " ++ e.description) 2
    | none =>
      let text := (splitEnd i.text).1
      withPatternFiles call rest (if i.text.isEmpty then texts else texts ++ [text]) next

/-- A number of lines that an option asks for. -/
def contextOf? (o : Options) : Except String (Nat × Nat) := do
  let number (c : Char) : Except String (Option Nat) :=
    match o.value? c with
    | none => .ok none
    | some word => match Numeral.digits? word.toList with
      | some n => .ok (some n)
      | none => .error (word ++ ": invalid context length argument")
  let after ← number 'A'
  let before ← number 'B'
  let both ← number 'C'
  let digits := (o.given.map (·.1)).filter Char.isDigit
  let both := if digits.isEmpty then both else Numeral.digits? digits
  .ok ((before <|> both).getD 0, (after <|> both).getD 0)

/-- The expressions that texts are, one a line, or what is wrong with one of them; and warnings. -/
def readPatterns (kind : Char) (texts : List String) : Except Regex.Fault (List Regex × List String) := do
  let lines := texts.flatMap fun text => text.splitOn "\n"
  if kind == 'F' then
    .ok (lines.map fun l => l.toList.foldr (fun c r => Regex.sequence (.octet c) r) .empty, [])
  else
    let read ← lines.mapM (Regex.read { extended := kind == 'E' })
    .ok (read.map (·.1), read.flatMap (·.2))

/-- Shows the lines that patterns fit. -/
def grep (call : Call) : Program :=
  match searchTable.read call.arguments [] with
  | .error text => .fail (message call text ++ searchUsage call) 2
  | .ok o =>
    let values (c : Char) : List String := (o.given.filter (·.1 == c)).map (·.2)
    let explicit := o.has 'e' || o.has 'f'
    match contextOf? o, (o.value? 'm').map fun w => (w, Numeral.digits? w.toList) with
    | .error text, _ => refuse call text 2
    | _, some (_, none) => refuse call "invalid max count" 2
    | .ok (before, after), most =>
      if o.operands.isEmpty && !explicit then .fail (searchUsage call) 2
      else withPatternFiles call (values 'f') (if explicit then values 'e' else o.operands.take 1) fun texts =>
        match readPatterns ((o.lastOf? ['E', 'F', 'G', 'P']).getD 'G') texts with
        | .error e => refuse call e.text 2
        | .ok (patterns, warnings) =>
          let files := if explicit then o.operands else o.operands.drop 1
          let recursive := o.has 'r' || o.has 'R'
          .consult fun fs cwd =>
            let targets : List String :=
              if !recursive then orInput files
              else if files.isEmpty then (filesWithin fs cwd fs.nodes.size ".").map fun p => String.ofList (p.toList.drop 2)
              else files.flatMap (filesWithin fs cwd fs.nodes.size)
            let names := match o.lastOf? ['h', 'H'] with
              | some c => c == 'H'
              | none => 1 < files.length || (recursive && (files.isEmpty || files.any fun f =>
                  ((fs.nodeAt? cwd f).map Node.isDirectory).getD false))
            let w : Showing := {
              names, numbers := o.has 'n', places := o.has 'b', only := o.has 'o', counts := o.has 'c'
              listed := (o.lastOf? ['l', 'L']).map (· == 'l'), quiet := o.has 'q', before, after
              most := most.bind (·.2), asText := o.has 'a' }
            let q : Query := {
              patterns, folds := o.has 'i' || o.has 'y', words := o.has 'w', lines := o.has 'x', inverts := o.has 'v' }
            .complain (String.join (warnings.map (message call)))
              (searchFiles call w q (o.has 's') targets false false)

end JobShell.Machine.Tool
