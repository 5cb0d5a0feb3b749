import JobShell.Machine.Tool.Input

/-!
# Tools that choose from lines

Lines that are equal to the one before are joined, counted or left out, and of each line some octets or fields are kept. What is
kept is given by ranges of numbers from one on.
-/

namespace JobShell.Machine.Tool

/-! ## Equal lines -/

/-- How lines are compared and what becomes of them: fields and octets passed over, octets compared, whether case counts, and the
letters of the other options. -/
structure Joining where
  fields : Nat := 0
  octets : Nat := 0
  width : Option Nat := none
  folds : Bool := false
  counts : Bool := false
  single : Bool := true
  repeated : Bool := true
  all : Bool := false

/-- The part of a line that is compared. -/
def Joining.part (j : Joining) (line : String) : List Char :=
  let isGap (c : Char) : Bool := c == ' ' || c == '\t'
  let rec past : Nat → List Char → List Char
    | 0, cs => cs
    | n + 1, cs => past n ((cs.dropWhile isGap).dropWhile fun c => !isGap c)
  let cs := (past j.fields line.toList).drop j.octets
  let cs := match j.width with
    | some n => cs.take n
    | none => cs
  if j.folds then cs.map Char.toLower else cs

/-- What is written of a group of so many equal lines when it is over. -/
def Joining.shown (j : Joining) (line : String) (count : Nat) : String :=
  if j.all || (count = 1 && !j.single) || (1 < count && !j.repeated) then ""
  else (if j.counts then alignRight 7 (toString count) ++ " " else "") ++ line ++ "\n"

/-- Joins equal lines: the state is the first line of the group at hand, and how many lines it has. -/
def Joining.filter (j : Joining) : LineFilter (Option (String × Nat)) where
  step group line :=
    let line := (splitEnd line).1
    match group with
    | some (first, count) =>
      if j.part first == j.part line then
        (some (first, count + 1),
          if !j.all then "" else (if count = 1 then first ++ "\n" else "") ++ line ++ "\n")
      else (some (line, 1), j.shown first count)
    | none => (some (line, 1), "")

/-- Joins lines that are equal to the one before. -/
def uniq (call : Call) : Program :=
  let table : OptionTable := {
    letters := "cdDuif:s:w:"
    names := [("count", 'c', .flag), ("repeated", 'd', .flag), ("all-repeated", 'D', .optional), ("unique", 'u', .flag),
      ("ignore-case", 'i', .flag), ("skip-fields", 'f', .needed), ("skip-chars", 's', .needed),
      ("check-chars", 'w', .needed)] }
  withOptions call table 1 fun o =>
    let number? (c : Char) : Option Nat := (o.value? c).bind sizeOf?
    let bad (c : Char) : Bool := (o.value? c).isSome && (number? c).isNone
    let invalid (c : Char) (what : String) : Program :=
      refuse call (bare ((o.value? c).getD "") ++ ": invalid number of " ++ what) 1
    let j : Joining := {
      fields := (number? 'f').getD 0, octets := (number? 's').getD 0, width := number? 'w', folds := o.has 'i'
      counts := o.has 'c', single := !(o.has 'd' || o.has 'D'), repeated := !o.has 'u', all := o.has 'D' }
    if bad 'f' then invalid 'f' "fields to skip"
    else if bad 's' then invalid 's' "bytes to skip"
    else if bad 'w' then invalid 'w' "bytes to compare"
    else if j.all && j.counts then
      misuse call "printing all duplicated lines and repeat counts is meaningless" 1
    else
      let run (input : String) : Program :=
        filterFiles call j.filter openFault 1 (fun group status =>
          .say call.name (match group with
            | some (line, count) => j.shown line count
            | none => "") (.exit status)) [input] none 0
      match o.operands with
      | [] => run "-"
      | [input] => run input
      | [input, "-"] => run input
      | [input, output] => .openFile none output .write fun
        | .ok d => .duplicate d 1 fun _ => .close d (run input)
        | .error e => refuse call (bare output ++ ": " ++ e.description) 1
      | _ :: _ :: extra :: _ => misuse call ("extra operand " ++ cited extra) 1
where
  /-- What is said of an input that cannot be read. -/
  openFault (file : String) : InputFault → String
    | .opening e => message call (bare file ++ ": " ++ e.description)
    | .reading e => message call ("error reading " ++ quoted file ++ ": " ++ e.description)

/-! ## Parts of lines -/

/-- A range of numbers from one on; without a last one it has no end. -/
structure Range where
  first : Nat
  last : Option Nat

/-- A number is in one of the ranges. -/
def inRanges (ranges : List Range) (n : Nat) : Bool :=
  ranges.any fun r => r.first ≤ n && (match r.last with
    | some last => n ≤ last
    | none => true)

/-- A range begins at a number. -/
def beginsRange (ranges : List Range) (n : Nat) : Bool := ranges.any (·.first == n)

/-- The range that a word is, or what is wrong with it. -/
def range? (ofFields : Bool) (word : String) : Except String Range :=
  let what := if ofFields then "field value " else "byte/character position "
  let fromOne : String := (if ofFields then "fields" else "byte/character positions") ++ " are numbered from 1"
  let number (text : String) : Except String Nat :=
    match Numeral.digits? text.toList with
    | some n => if n = 0 then .error fromOne else .ok n
    | none => .error ("invalid " ++ what ++ cited word)
  match word.splitOn "-" with
  | [one] => do
    let n ← if one.isEmpty then .error fromOne else number one
    .ok { first := n, last := some n }
  | ["", ""] => .error "invalid range with no endpoint: -"
  | ["", last] => do
    let n ← number last
    .ok { first := 1, last := some n }
  | [first, ""] => do
    let n ← number first
    .ok { first := n, last := none }
  | [first, last] => do
    let a ← number first
    let b ← number last
    if b < a then .error "invalid decreasing range" else .ok { first := a, last := some b }
  | _ => .error ("invalid " ++ (if ofFields then "field range" else "byte or character range"))

/-- The ranges of a list with commas or blanks. -/
def ranges? (ofFields : Bool) (list : String) : Except String (List Range) :=
  ((list.map fun c => if c == ' ' || c == '\t' then ',' else c).splitOn ",").mapM (range? ofFields)

/-- Which parts of a line are kept, what parts its fields, and what stands between parts that are kept. -/
structure Cutting where
  ofFields : Bool
  ranges : List Range
  complement : Bool
  delimiter : Char
  between : Option String
  onlyDelimited : Bool

/-- A part of this number is kept. -/
def Cutting.keeps (k : Cutting) (n : Nat) : Bool := inRanges k.ranges n != k.complement

/-- What is kept of a line, if the line is kept at all. -/
def Cutting.cut (k : Cutting) (line : String) : Option String :=
  if k.ofFields then
    let fields := line.splitOn (String.singleton k.delimiter)
    if fields.length = 1 then (if k.onlyDelimited then none else some line)
    else
      let kept := (fields.zipIdx 1).filterMap fun (f, n) => if k.keeps n then some f else none
      some ((k.between.getD (String.singleton k.delimiter)).intercalate kept)
  else
    let step := fun ((out, last) : List Char × Nat) ((c, n) : Char × Nat) =>
      if !k.keeps n then (out, last)
      else
        let gap := match k.between with
          | some text => if last != 0 && (last + 1 < n || (!k.complement && beginsRange k.ranges n)) then text.toList else []
          | none => []
        (c :: gap.reverse ++ out, n)
    some (String.ofList ((line.toList.zipIdx 1).foldl step ([], 0)).1.reverse)

/-- Keeps parts of lines. -/
def cut (call : Call) : Program :=
  let table : OptionTable := {
    letters := "b:c:d:f:nsz"
    names := [("bytes", 'b', .needed), ("characters", 'c', .needed), ("delimiter", 'd', .needed), ("fields", 'f', .needed),
      ("only-delimited", 's', .flag), ("complement", 'C', .flag), ("output-delimiter", 'O', .needed)] }
  withOptions call table 1 fun o =>
    match o.given.filter fun g => ['b', 'c', 'f'].contains g.1 with
    | [] => misuse call "you must specify a list of bytes, characters, or fields" 1
    | _ :: _ :: _ => misuse call "only one list may be specified" 1
    | [(kind, list)] =>
      let ofFields := kind == 'f'
      let delimiter := (o.value? 'd').getD "\t"
      if 1 < delimiter.length then misuse call "the delimiter must be a single character" 1
      else if o.has 'd' && !ofFields then
        misuse call "an input delimiter may be specified only when operating on fields" 1
      else if o.has 's' && !ofFields then
        misuse call "suppressing non-delimited lines makes sense\n\tonly when operating on fields" 1
      else match ranges? ofFields list with
        | .error text => misuse call text 1
        | .ok ranges =>
          let k : Cutting := {
            ofFields, ranges, complement := o.has 'C', delimiter := delimiter.toList.headD '\x00', between := o.value? 'O'
            onlyDelimited := o.has 's' }
          let f : LineFilter Unit := { step := fun _ line => ((), match k.cut (splitEnd line).1 with
            | some text => text ++ "\n"
            | none => "") }
          filterFiles call f (plainFault call) 1 (fun _ status => .exit status) (orInput o.operands) () 0

end JobShell.Machine.Tool
