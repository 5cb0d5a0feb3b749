import JobShell.Machine.Escapes
import JobShell.Machine.Tool.Input
import JobShell.Machine.Wildcard

/-!
# Replacing octets

A set of octets is a list in which ranges, classes and repetitions stand for the octets they hold. Octets of one set are replaced
by the octets in the same places of another, or they are deleted, and runs of the same octet are made one.
-/

namespace JobShell.Machine.Tool

/-- A piece of a set: an octet, an octet so many times, or a class of octets. -/
inductive SetPiece where
  | octet (c : Char)
  | repeated (c : Char) (count : Nat)
  | named (name : String)

/-- All octets. -/
def allOctets : List Char := (List.range 256).map Char.ofNat

/-- The octets of a word with escapes, each with whether it was one, and whether the word ends in a lone backslash. -/
def readOctets : (fuel : Nat) → List Char → List (Char × Bool) × Bool
  | 0, _ => ([], false)
  | _, [] => ([], false)
  | _, ['\\'] => ([('\\', false)], true)
  | fuel + 1, '\\' :: c :: cs =>
    let (octet, rest) := match octal? c with
      | some _ =>
        let (n, rest) := readDigits octal? 8 3 0 (c :: cs)
        if n < 256 then (Char.ofNat n, rest) else
          let (n, rest) := readDigits octal? 8 2 0 (c :: cs)
          (Char.ofNat n, rest)
      | none => if c == 'e' then (c, cs) else ((escapeLetter? c).getD c, cs)
    let (more, lone) := readOctets fuel rest
    ((octet, true) :: more, lone)
  | fuel + 1, c :: cs =>
    let (more, lone) := readOctets fuel cs
    ((c, false) :: more, lone)

/-- What stands between an opening bracket with a mark after it and the same mark with a closing bracket, and the rest. -/
def bracketed? (mark : Char) (cs : List (Char × Bool)) : Option (List Char × List (Char × Bool)) :=
  go cs []
where
  /-- Looks for the end. -/
  go : List (Char × Bool) → List Char → Option (List Char × List (Char × Bool))
    | (m, false) :: (']', false) :: rest, held => if m == mark then some (held.reverse, rest) else go ((']', false) :: rest) (m :: held)
    | (c, _) :: rest, held => go rest (c :: held)
    | [], _ => none

/-- The count of a repetition; none means as often as needed. -/
def repetition? (cs : List Char) : Option Nat :=
  match cs with
  | [] => some 0
  | '0' :: _ =>
    let (n, rest) := readDigits octal? 8 cs.length 0 cs
    if rest.isEmpty then some n else none
  | _ => Numeral.digits? cs

/-- The pieces of a set, or what is wrong with it. -/
def readSet : (fuel : Nat) → List (Char × Bool) → Except String (List SetPiece)
  | 0, _ => .ok []
  | _, [] => .ok []
  | fuel + 1, cs =>
    let special : Option (Except String (List SetPiece × List (Char × Bool))) := match cs with
      | ('[', false) :: (':', false) :: rest => (bracketed? ':' rest).map fun (name, rest) =>
          let name := String.ofList name
          if name.isEmpty then .error "missing character class name '[::]'"
          else if classNames.contains name then .ok ([.named name], rest)
          else .error ("invalid character class " ++ cited name)
      | ('[', false) :: ('=', false) :: rest => (bracketed? '=' rest).map fun (text, rest) =>
          match text with
          | [] => .error "missing equivalence class character '[==]'"
          | [c] => .ok ([.octet c], rest)
          | _ => .error (String.ofList text ++ ": equivalence class operand must be a single character")
      | ('[', false) :: (c, _) :: ('*', false) :: rest =>
        let digits := rest.takeWhile fun d => d.1 != ']'
        match rest.drop digits.length with
        | (']', false) :: rest =>
          let digits := digits.map (·.1)
          if !digits.all Char.isDigit then
            some (.error ("invalid repeat count " ++ cited (String.ofList digits) ++ " in [c*n] construct"))
          else (repetition? digits).map fun n => .ok ([.repeated c n], rest)
        | _ => none
      | _ => none
    match special, cs with
    | some (.error e), _ => .error e
    | some (.ok (pieces, rest)), _ => do
      let more ← readSet fuel rest
      .ok (pieces ++ more)
    | none, (a, _) :: ('-', false) :: (b, _) :: rest =>
      if b < a then
        .error ("range-endpoints of '" ++ String.ofList [a, '-', b] ++ "' are in reverse collating sequence order")
      else do
        let more ← readSet fuel rest
        .ok ((List.range (b.toNat - a.toNat + 1)).map (fun i => .octet (Char.ofNat (a.toNat + i))) ++ more)
    | none, (c, _) :: rest => do
      let more ← readSet fuel rest
      .ok (.octet c :: more)
    | none, [] => .ok []

/-- The octets that a piece stands for; a repetition without a count stands for `fill` octets. -/
def SetPiece.octets (fill : Nat) : SetPiece → List Char
  | .octet c => [c]
  | .repeated c 0 => List.replicate fill c
  | .repeated c n => List.replicate n c
  | .named name => allOctets.filter (isInClass name)

/-- The octets of a set. -/
def octetsOf (pieces : List SetPiece) : List Char := pieces.flatMap (SetPiece.octets 0)

/-- The octets of a set that is to have as many as another one, with its last octet repeated unless the other is cut short. -/
def fillTo (size : Nat) (pieces : List SetPiece) : List Char :=
  let fixed := octetsOf pieces
  let filled := pieces.flatMap (SetPiece.octets (size - fixed.length))
  filled ++ match filled.getLast? with
    | some c => List.replicate (size - filled.length) c
    | none => []

/-- What becomes of octets: which are deleted, what replaces the others, and of which runs are made one. -/
structure Replacing where
  deletes : List Char := []
  replaces : List (Char × Char) := []
  squeezes : List Char := []

/-- Replaces octets in a piece of text; the state is the octet that was written last. -/
def Replacing.filter (r : Replacing) : LineFilter (Option Char) :=
  let isDeleted := Array.ofFn fun (i : Fin 256) => r.deletes.contains (Char.ofNat i.val)
  let isSqueezed := Array.ofFn fun (i : Fin 256) => r.squeezes.contains (Char.ofNat i.val)
  let replaced := Array.ofFn fun (i : Fin 256) =>
    let c := Char.ofNat i.val
    ((r.replaces.filter (·.1 == c)).getLast?.map (·.2)).getD c
  { step := fun last line =>
      let (last, out) := line.toList.foldl (fun ((last, out) : Option Char × List Char) c =>
        if isDeleted.getD c.toNat false then (last, out)
        else
          let c := replaced.getD c.toNat c
          if last == some c && isSqueezed.getD c.toNat false then (last, out) else (some c, c :: out)) (last, [])
      (last, String.ofList out.reverse) }

/-- What two sets ask for, or what is wrong with them. -/
def Replacing.of (complements deletes squeezes truncates : Bool) (first : List SetPiece) (second : Option (List SetPiece)) :
    Except String Replacing :=
  let own := octetsOf first
  let own := if complements then allOctets.filter fun c => !own.contains c else own
  match deletes, second with
  | true, none => .ok { deletes := own }
  | true, some second => .ok { deletes := own, squeezes := octetsOf second }
  | false, none => .ok { squeezes := own }
  | false, some second =>
    let classes := second.filterMap fun
      | .named name => some name
      | _ => none
    if classes.any fun name => name != "lower" && name != "upper" then
      .error "when translating, the only character classes that may appear in\nstring2 are 'upper' and 'lower'"
    else if second.isEmpty && !truncates then .error "when not truncating set1, string2 must be non-empty"
    else
      let other := if truncates then octetsOf second else fillTo own.length second
      .ok { replaces := own.zip other, squeezes := if squeezes then other else [] }

/-- Replaces, deletes and squeezes octets of its input. -/
def tr (call : Call) : Program :=
  let table : OptionTable := {
    letters := "cCdst", stops := true
    names := [("complement", 'c', .flag), ("delete", 'd', .flag), ("squeeze-repeats", 's', .flag), ("truncate-set1", 't', .flag)] }
  withOptions call table 1 fun o =>
    let deletes := o.has 'd'
    let squeezes := o.has 's'
    let most := if deletes && !squeezes then 1 else 2
    let least := if deletes == squeezes then 2 else 1
    match o.operands with
    | [] => misuse call "missing operand" 1
    | first :: rest =>
      if rest.length + 1 < least then
        let reason := if squeezes then "Two strings must be given when both deleting and squeezing repeats.\n"
          else "Two strings must be given when translating.\n"
        .fail (message call ("missing operand after " ++ cited first) ++ reason ++ advice call) 1
      else match rest[most - 1]? with
        | some extra =>
          let reason := if rest.length = 1 then "Only one string may be given when deleting without squeezing repeats.\n" else ""
          .fail (message call ("extra operand " ++ cited extra) ++ reason ++ advice call) 1
        | none =>
          let read (word : String) : List (Char × Bool) × Bool := readOctets word.length word.toList
          let lone := (read first).2 || rest.any fun w => (read w).2
          let warned (next : Program) : Program := .complain
            (if lone then message call "warning: an unescaped backslash at end of string is not portable" else "") next
          let sets : Except String Replacing := do
            let a ← readSet first.length (read first).1
            let b ← rest.head?.mapM fun w => readSet w.length (read w).1
            Replacing.of (o.has 'c' || o.has 'C') deletes squeezes (o.has 't') a b
          warned (match sets with
            | .error text => refuse call text 1
            | .ok r => filterInput call r.filter 0 (fun _ e => match e with
                | some e => refuse call ("read error: " ++ e.description) 1
                | none => .exit 0) Program.endless none [])

end JobShell.Machine.Tool
