import JobShell.Machine.Tool.Input

/-!
# Tools that copy

Tools that write what they read as it is, line by line in another order, with marks on it, or to several places; and one that
writes the same line for ever.
-/

namespace JobShell.Machine.Tool

/-- Copies an input to the output as it comes. -/
def copy (call : Call) (source : Descriptor) (next : Option FileError → Program) : (steps : Nat) → Program
  | 0 => next none
  | steps + 1 =>
    .read source Program.blockSize fun
      | .error e => next (some e)
      | .ok text => if text.isEmpty then next none else .say call.name text (copy call source next steps)

/-- Copies files one after the other. -/
def copyFiles (call : Call) : List String → (status : Nat) → Program
  | [], status => .exit status
  | file :: rest, status =>
    let report (e : InputFault) : Program := .complain (plainFault call file e) (copyFiles call rest 1)
    openInput file fun
      | .error e => report (.opening e)
      | .ok d => copy call d (fun e => closeInput file d (match e with
          | some e => report (.reading e)
          | none => copyFiles call rest status)) Program.endless

/-- How lines are marked: which are numbered, whether empty ones after each other are one, and what is made visible. -/
structure Marking where
  numbersAll : Bool := false
  numbersText : Bool := false
  squeezes : Bool := false
  ends : Bool := false
  tabs : Bool := false
  controls : Bool := false

/-- An octet made visible. -/
def Marking.visible (k : Marking) (c : Char) : String :=
  let low (n : Nat) : String :=
    if n < 32 then "^" ++ String.singleton (Char.ofNat (n + 64)) else if n = 127 then "^?" else String.singleton (Char.ofNat n)
  if c == '\t' then (if k.tabs then "^I" else "\t")
  else if !k.controls then String.singleton c
  else if c.toNat < 128 then low c.toNat else "M-" ++ low (c.toNat - 128)

/-- Where marking stands: the number of the last line, whether it has no end yet, and whether it was empty. -/
structure MarkingState where
  number : Nat := 0
  isOpen : Bool := false
  wasEmpty : Bool := false

/-- Marks lines. -/
def Marking.filter (k : Marking) : LineFilter MarkingState where
  step s line :=
    let (text, ending) := splitEnd line
    let isEmpty := text.isEmpty && !s.isOpen
    if isEmpty && s.wasEmpty && k.squeezes then (s, "")
    else
      let numbered := !s.isOpen && (if k.numbersText then !isEmpty else k.numbersAll)
      let number := if numbered then s.number + 1 else s.number
      let shown := String.join (text.toList.map k.visible)
      ({ number, isOpen := ending.isEmpty, wasEmpty := isEmpty },
        (if numbered then alignRight 6 (toString number) ++ "\t" else "") ++ shown ++
          (if k.ends && !ending.isEmpty then "$" else "") ++ ending)

/-- Copies its inputs to its output. -/
def cat (call : Call) : Program :=
  let table : OptionTable := {
    letters := "AbeEnstTuv"
    names := [("show-all", 'A', .flag), ("number-nonblank", 'b', .flag), ("show-ends", 'E', .flag), ("number", 'n', .flag),
      ("squeeze-blank", 's', .flag), ("show-tabs", 'T', .flag), ("show-nonprinting", 'v', .flag)] }
  withOptions call table 1 fun o =>
    let hasAny (cs : List Char) : Bool := cs.any o.has
    if o.given.all (·.1 == 'u') then copyFiles call (orInput o.operands) 0
    else
      let k : Marking := {
        numbersAll := o.has 'n', numbersText := o.has 'b', squeezes := o.has 's', ends := hasAny ['E', 'e', 'A']
        tabs := hasAny ['T', 't', 'A'], controls := hasAny ['v', 'e', 't', 'A'] }
      filterFiles call k.filter (plainFault call) 1 (fun _ status => .exit status) (orInput o.operands) {} 0

/-- A text cut after each separator. -/
def cutAfter (separator : String) (text : String) : List String :=
  match (text.splitOn separator).reverse with
  | [] => []
  | last :: before => (before.map (· ++ separator)).reverse ++ if last.isEmpty then [] else [last]

/-- The pieces of each input in the opposite order. -/
def tac (call : Call) : Program :=
  let table : OptionTable :=
    { letters := "brs:", names := [("before", 'b', .flag), ("regex", 'r', .flag), ("separator", 's', .needed)] }
  withOptions call table 1 fun o => go ((o.value? 's').getD "\n") (orInput o.operands) 0
where
  /-- Takes one input after the other. -/
  go (separator : String) : List String → (status : Nat) → Program
    | [], status => .exit status
    | file :: rest, status => readInput file fun i =>
      match i.fault with
      | some (.opening e) =>
        .complain (message call ("failed to open " ++ quoted file ++ " for reading: " ++ e.description)) (go separator rest 1)
      | some (.reading e) =>
        let e := if e = .isDirectory then .invalid else e
        .complain (message call (bare i.shownName ++ ": read error: " ++ e.description)) (go separator rest 1)
      | none => .say call.name (String.join (cutAfter separator i.text).reverse) (go separator rest status)

/-- Each line with its octets in the opposite order. -/
def rev (call : Call) : Program :=
  let fault (file : String) : InputFault → String
    | .opening e => message call ("cannot open " ++ file ++ ": " ++ e.description)
    | .reading e => message call (file ++ ": " ++ e.description)
  let f : LineFilter Unit := { step := fun _ line =>
    let (text, ending) := splitEnd line
    ((), String.ofList text.toList.reverse ++ ending) }
  withOptions call {} 1 fun o => filterFiles call f fault 1 (fun _ status => .exit status) (orInput o.operands) () 0

/-- Copies its input to its output and to files. -/
def tee (call : Call) : Program :=
  withOptions call { letters := "aip", names := [("append", 'a', .flag), ("ignore-interrupts", 'i', .flag)] } 1 fun o =>
    let started (next : Program) : Program := if o.has 'i' then .dispose [Signal.int.number] .ignore next else next
    started (openAll (o.has 'a') o.operands [] 0)
where
  /-- Opens one file after the other, and copies then. -/
  openAll (append : Bool) : List String → List (Descriptor × String) → (status : Nat) → Program
    | [], outputs, status => go Program.endless ((1, "standard output") :: outputs.reverse) status
    | file :: rest, outputs, status =>
      .openFile none file (if append then .append else .write) fun
        | .ok d => openAll append rest ((d, file) :: outputs) status
        | .error e => .complain (message call (bare file ++ ": " ++ e.description)) (openAll append rest outputs 1)
  /-- Copies block by block. -/
  go : (steps : Nat) → List (Descriptor × String) → (status : Nat) → Program
    | 0, _, status => .exit status
    | steps + 1, outputs, status =>
      .read 0 Program.blockSize fun
        | .error e => .fail (message call ("read error: " ++ e.description)) 1
        | .ok text => if text.isEmpty then .exit status else writeAll steps text outputs [] status
  /-- Writes a block to one place after the other; one that cannot be written to is left out from then on. -/
  writeAll (steps : Nat) (text : String) : List (Descriptor × String) → List (Descriptor × String) → (status : Nat) → Program
    | [], kept, status => if kept.isEmpty then .exit status else go steps kept.reverse status
    | (d, file) :: rest, kept, status =>
      .write d text fun
        | .ok () => writeAll steps text rest ((d, file) :: kept) status
        | .error e => .complain (message call (bare file ++ ": " ++ e.description)) (writeAll steps text rest kept 1)

/-- How much is written at once of a line that is repeated. -/
def repeatedSize : Nat := 8192

/-- Writes the same text again and again. -/
def repeating (text : String) (failed : FileError → Program) : (steps : Nat) → Program
  | 0 => .exit 0
  | steps + 1 => .write 1 text fun
    | .ok () => repeating text failed steps
    | .error e => failed e

/-- The same line again and again. -/
def yes (call : Call) : Program :=
  withOptions call { stops := true } 1 fun o =>
    let line := (if o.operands.isEmpty then "y" else " ".intercalate o.operands) ++ "\n"
    repeating (String.join (List.replicate (max 1 (repeatedSize / line.length)) line))
      (fun e => refuse call ("standard output: " ++ e.description) 1) Program.endless

end JobShell.Machine.Tool
