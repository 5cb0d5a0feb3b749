import JobShell.Machine.Tool.Input

/-!
# Tools that show a part

The beginning or the end of inputs, in lines or octets, and the counts of what is in them. Where there are several inputs, the
name of each one stands above its part.
-/

namespace JobShell.Machine.Tool

/-- How much is wanted: so many lines or octets from the beginning or the end, or all but so many. -/
structure Extent where
  lines : Bool := true
  count : Nat := 10
  signed : Bool := false

/-- Whether names stand above the parts: always, never, or where there are several. -/
def showsNames (o : Options) : Bool :=
  match o.lastOf? ['q', 'v'] with
  | some 'v' => true
  | some _ => false
  | none => 1 < o.operands.length

/-- The line with the name of an input, and the empty line before it unless it comes first. -/
def nameLine (isFirst : Bool) (name : String) : String := (if isFirst then "" else "\n") ++ "==> " ++ name ++ " <==\n"

/-- The extent that options ask for. A count with `sign` before it means another thing. -/
def extentOf (call : Call) (o : Options) (sign other : Char) (next : Extent → Program) : Program :=
  match (o.given.filter fun g => g.1 == 'n' || g.1 == 'c').getLast? with
  | none => next {}
  | some (c, word) =>
    let lines := c == 'n'
    let cs := word.toList.dropWhile (· == ' ')
    let (signed, digits) := match cs with
      | d :: rest => if d == sign then (true, rest) else if d == other then (false, rest) else (false, cs)
      | [] => (false, [])
    let bad (reason : String) : Program :=
      refuse call ("invalid number of " ++ (if lines then "lines" else "bytes") ++ ": " ++ cited word ++ reason) 1
    if digits.isEmpty then bad ""
    else match sizeOf? (String.ofList digits) with
      | some count => if count < Nat.pow 2 64 then next { lines, count, signed } else bad ": Value too large for defined data type"
      | none => bad ""

/-- The names of the options of tools that show a part. -/
def extentNames : List (String × Char × Arity) :=
  [("bytes", 'c', .needed), ("lines", 'n', .needed), ("quiet", 'q', .flag), ("silent", 'q', .flag), ("verbose", 'v', .flag)]

/-- The first arguments of a tool with a count written after a dash put in the form of an option. -/
def withCount (args : List String) : Except Char (List String) :=
  match args with
  | first :: rest =>
    match first.toList with
    | '-' :: d :: more =>
      if !d.isDigit then .ok args
      else
        let digits := (d :: more).takeWhile Char.isDigit
        let letters := (d :: more).drop digits.length
        match letters.find? fun c => !"cbkmlqv".toList.contains c with
        | some c => .error c
        | none =>
          let size := String.ofList (digits ++ (letters.filter "bkm".toList.contains).map fun c => if c == 'm' then 'M' else c)
          let unit := if letters.any "cbkm".toList.contains then "-c" else "-n"
          .ok ((unit ++ size) :: (letters.filter "qv".toList.contains).map (fun c => "-" ++ String.singleton c) ++ rest)
    | _ => .ok args
  | [] => .ok []

/-! ## The beginning -/

/-- How much is read at once where only the beginning is wanted. -/
def headBlock : Nat := 8192

/-- The place after so many ends of line. -/
def afterLines : (count : Nat) → List Char → Option Nat
  | 0, _ => some 0
  | _, [] => none
  | count + 1, c :: cs => (afterLines (if c == '\n' then count else count + 1) cs).map (· + 1)
termination_by count cs => (cs.length, count)

/-- Copies so many lines or octets, and puts back what was read beyond them. -/
def copyHead (call : Call) (source : Descriptor) (lines : Bool) (next : Option FileError → Program) :
    (steps : Nat) → (left : Nat) → Program
  | 0, _ => next none
  | _, 0 => next none
  | steps + 1, left =>
    .read source (if lines then headBlock else min headBlock left) fun
      | .error e => next (some e)
      | .ok text =>
        let cs := text.toList
        if cs.isEmpty then next none
        else match if lines then afterLines left cs else if left ≤ cs.length then some left else none with
          | some n =>
            .say call.name (String.ofList (cs.take n))
              (if n < cs.length then .seekBack source (cs.length - n) (next none) else next none)
          | none =>
            .say call.name text (copyHead call source lines next steps (left - if lines then cs.count '\n' else cs.length))

/-- All but so many lines or octets at the end. -/
def allButLast (x : Extent) (text : String) : String :=
  if x.lines then
    let lines := cutLines text
    String.join (lines.take (lines.length - x.count))
  else String.ofList (text.toList.take (text.length - x.count))

/-- The beginnings of inputs. -/
def head (call : Call) : Program :=
  match withCount call.arguments with
  | .error c => misuse call ("invalid trailing option -- " ++ String.singleton c) 1
  | .ok arguments =>
    withOptions { call with arguments } { letters := "c:n:qvz", names := extentNames } 1 fun o =>
      extentOf call o '-' '+' fun x => go x (showsNames o) true (orInput o.operands) 0
where
  /-- Takes one input after the other. -/
  go (x : Extent) (named isFirst : Bool) : List String → (status : Nat) → Program
    | [], status => .exit status
    | file :: rest, status =>
      openInput file fun
        | .error e => .complain (openingFault call file (.opening e)) (go x named isFirst rest 1)
        | .ok d =>
          let name := if file == "-" then "standard input" else file
          let done (e : Option FileError) : Program := closeInput file d (match e with
            | some e => .complain (openingFault call name (.reading e)) (go x named false rest 1)
            | none => go x named false rest status)
          .say call.name (if named then nameLine isFirst name else "")
            (if x.signed then .readAll d fun text e => .say call.name (allButLast x text) (done e)
            else copyHead call d x.lines done Program.endless x.count)

/-! ## The end -/

/-- The last so many lines or octets, or all from one of them on. -/
def lastPart (x : Extent) (text : String) : String :=
  if x.lines then
    let lines := cutLines text
    String.join (lines.drop (if x.signed then x.count - 1 else lines.length - x.count))
  else String.ofList (text.toList.drop (if x.signed then x.count - 1 else text.length - x.count))

/-- How often a file is looked at that may grow. -/
def followPause : Nat := 1000000

/-- Shows what is added to a file, for ever. -/
def follow (call : Call) (d : Descriptor) : (steps : Nat) → Program
  | 0 => .exit 0
  | steps + 1 => .readAll d fun text _ => .say call.name text (.sleep followPause (follow call d steps))

/-- The ends of inputs. -/
def tail (call : Call) : Program :=
  let arguments : Except Char (List String) := match call.arguments with
    | first :: rest => match first.toList with
      | '+' :: d :: more => if d.isDigit && rest.length ≤ 1 then .ok (("-n+" ++ String.ofList (d :: more)) :: rest)
          else .ok call.arguments
      | _ => withCount call.arguments
    | [] => .ok []
  match arguments with
  | .error c => misuse call ("option used in invalid context -- " ++ String.singleton c) 1
  | .ok arguments =>
    let names : List (String × Char × Arity) := extentNames ++ [("follow", 'f', .optional), ("sleep-interval", 's', .needed), ("retry", 'R', .flag),
      ("pid", 'p', .needed)]
    withOptions { call with arguments } { letters := "c:n:qvzfFs:", names } 1 fun o =>
      extentOf call o '+' '-' fun x => go x (showsNames o) (o.has 'f' || o.has 'F') true (orInput o.operands) 0
where
  /-- Takes one input after the other; the last one is followed. -/
  go (x : Extent) (named follows isFirst : Bool) : List String → (status : Nat) → Program
    | [], status => if follows then refuse call "no files remaining" 1 else .exit status
    | file :: rest, status =>
      openInput file fun
        | .error e => .complain (openingFault call file (.opening e)) (go x named follows isFirst rest 1)
        | .ok d =>
          let name := if file == "-" then "standard input" else file
          .say call.name (if named then nameLine isFirst name else "")
            (.readAll d fun text e => .say call.name (lastPart x text) (match e with
              | some e =>
                closeInput file d (.complain (openingFault call name (.reading e)) (go x named follows false rest 1))
              | none =>
                if follows && rest.isEmpty then .inspect fun channel =>
                  match channel d with
                  | some (.pipeRead _) => .exit status
                  | _ => follow call d Program.endless
                else closeInput file d (go x named follows false rest status)))

/-! ## Counts -/

/-- What is counted: lines, words, characters, octets, and the width of the widest line. -/
structure Counts where
  lines : Nat := 0
  words : Nat := 0
  octets : Nat := 0
  width : Nat := 0

/-- An octet that parts words. -/
def partsWords (c : Char) : Bool := c == ' ' || ('\t' ≤ c && c ≤ '\r')

/-- An octet that makes a word, and has a width. -/
def isPrintable (c : Char) : Bool := ' ' ≤ c && c ≤ '~'

/-- The counts of a text. Octets that cannot be printed neither part words nor make them. -/
def Counts.of (text : String) : Counts :=
  let cs := text.toList
  let (words, _) := cs.foldl (fun (n, inWord) c =>
    if partsWords c then (n, false) else if isPrintable c && !inWord then (n + 1, true) else (n, inWord)) (0, false)
  let (width, last) := cs.foldl (fun ((best, at_) : Nat × Nat) c =>
    if c == '\n' || c == '\r' || c == '\x0c' then (max best at_, 0)
    else if c == '\t' then (best, at_ + 8 - at_ % 8)
    else if isPrintable c then (best, at_ + 1) else (best, at_)) (0, 0)
  { lines := cs.count '\n', words, octets := cs.length, width := max width last }

/-- The counts of two texts together. -/
def Counts.add (a b : Counts) : Counts :=
  { lines := a.lines + b.lines, words := a.words + b.words, octets := a.octets + b.octets, width := max a.width b.width }

/-- The counts that options ask for, in their order. -/
def Counts.chosen (o : Options) (k : Counts) : List Nat :=
  let all := !(['l', 'w', 'm', 'c', 'L'].any o.has)
  (if all || o.has 'l' then [k.lines] else []) ++ (if all || o.has 'w' then [k.words] else []) ++
    (if o.has 'm' then [k.octets] else []) ++ (if all || o.has 'c' then [k.octets] else []) ++
    if o.has 'L' then [k.width] else []

/-- Counts lines, words and octets. -/
def wc (call : Call) : Program :=
  let table : OptionTable := {
    letters := "clLmw"
    names := [("bytes", 'c', .flag), ("chars", 'm', .flag), ("lines", 'l', .flag), ("words", 'w', .flag),
      ("max-line-length", 'L', .flag)] }
  withOptions call table 1 fun o =>
    .inspect fun channel => .consult fun fs cwd =>
      let files := orInput o.operands
      let fromFile := match channel 0 with
        | some (.file ..) => true
        | _ => false
      let nodes := (files.filter (· != "-")).filterMap (fs.nodeAt? cwd)
      let sizes := nodes.filterMap fun
        | .file text _ => some text.length
        | _ => none
      -- A regular file tells how wide its counts can be; anything else needs the usual width.
      let least := if sizes.length < nodes.length || (files.contains "-" && !fromFile) then 7 else 1
      let begin (inputSize : Nat) : Program :=
        go o (max least (toString (sizes.foldl (· + ·) inputSize)).length) (1 < files.length) files {} 0
      if files.length = 1 && (Counts.chosen o {}).length = 1 then go o 1 false files {} 0
      else if files.contains "-" && fromFile then
        .readAll 0 fun text _ => .seekBack 0 text.length (begin text.length)
      else begin 0
where
  /-- Takes one input after the other. -/
  go (o : Options) (width : Nat) (several : Bool) : List String → Counts → (status : Nat) → Program
    | [], total, status => .say call.name (if several then row o width total "total" else "") (.exit status)
    | file :: rest, total, status => readInput file fun i =>
      let k := Counts.of i.text
      let name := if file == "-" && o.operands.isEmpty then "" else file
      match i.fault with
      | some (.opening e) => .complain (plainFault call file (.opening e)) (go o width several rest total 1)
      | some (.reading e) =>
        .complain (plainFault call file (.reading e))
          (.say call.name (row o width k name) (go o width several rest (total.add k) 1))
      | none => .say call.name (row o width k name) (go o width several rest (total.add k) status)
  /-- One row. -/
  row (o : Options) (width : Nat) (k : Counts) (name : String) : String :=
    " ".intercalate ((Counts.chosen o k).map fun n => alignRight width (toString n)) ++
      (if name.isEmpty then "" else " " ++ name) ++ "\n"

end JobShell.Machine.Tool
