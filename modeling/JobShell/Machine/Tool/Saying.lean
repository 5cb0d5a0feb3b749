import JobShell.Machine.Condition
import JobShell.Machine.Format
import JobShell.Machine.Tool.Input

/-!
# Tools that print and ask

Tools that make a text of their arguments, without reading anything: the arguments themselves, arguments after a format, numbers
in a row, and parts of paths; and the tools that answer with nothing but their status.
-/

namespace JobShell.Machine.Tool

/-- Ends with a status. -/
def ending (status : Nat) : Call → Program := fun _ => .exit status

/-- Prints its arguments. Letters after a dash leave out the end of line, or let escapes count or not. -/
def echo (call : Call) : Program :=
  let isOption (a : String) : Bool :=
    match a.toList with
    | '-' :: c :: cs => (c :: cs).all "neE".toList.contains
    | _ => false
  let options := call.arguments.takeWhile isOption
  let letters := options.flatMap fun a => a.toList.drop 1
  let text := " ".intercalate (call.arguments.drop options.length)
  let escapes := (letters.filter (· != 'n')).getLast? == some 'e'
  let (cs, ended) := if escapes then unescape .tool text else (text.toList, false)
  .answer call.name (String.ofList cs ++ if letters.contains 'n' || ended then "" else "\n")

/-- Prints its arguments after a format. -/
def printf (call : Call) : Program :=
  let words := match call.arguments with
    | "--" :: rest => rest
    | words => words
  match words with
  | [] => misuse call "missing operand" 1
  | format :: arguments =>
    let f := formatWith .tool format arguments
    let text := String.ofList ((f.said.reverse.filter fun p => !p.1).flatMap (·.2))
    let complaints := String.join ((f.said.reverse.filter (·.1)).map fun p => message call (String.ofList p.2))
    .complain complaints (.say call.name text (match f.fault with
      | some fault => refuse call fault 1
      | none => .exit (if f.failed then 1 else 0)))

/-- Checks a condition; under the name `[` its last word is a bracket. -/
def test (bracketed : Bool) (call : Call) : Program :=
  if bracketed && call.arguments.getLast? != some "]" then refuse call "missing ']'" 2
  else
    let words := if bracketed then call.arguments.dropLast else call.arguments
    .inspect fun channel => .consult fun files directory =>
      match Condition.toolValue { files, directory, channel } words with
      | .ok b => .exit (if b then 0 else 1)
      | .error fault => refuse call fault 2

/-- Prints the working directory. -/
def pwd (call : Call) : Program :=
  withOptions call { letters := "LP", names := [("logical", 'L', .flag), ("physical", 'P', .flag)] } 1 fun o =>
    .complain (if o.operands.isEmpty then "" else message call "ignoring non-option arguments")
      (.consult fun fs cwd =>
        let own := (call.environment.get? "PWD").filter fun dir =>
          FileSystem.isAbsolute dir && (dir.splitOn "/").all (fun name => name != "." && name != "..") &&
            (fs.directory cwd dir).toOption == some cwd
        match own.filter fun _ => o.lastOf? ['L', 'P'] == some 'L' with
        | some dir => .answer call.name (dir ++ "\n")
        | none =>
          match fs.pathOf cwd with
          | .ok dir => .answer call.name (dir ++ "\n")
          | .error e => refuse call ("couldn't find directory entry in '..' with matching i-node: " ++ e.description) 1)

/-! ## Parts of paths -/

/-- The last name of a path, and a slash where the path is made of slashes. -/
def baseName (path : String) : String :=
  let cs := (FileSystem.withoutSlashes path).toList
  if cs.isEmpty then (if path.isEmpty then "" else "/") else String.ofList (cs.reverse.takeWhile (· != '/')).reverse

/-- A name without an ending, unless the ending is all of it. -/
def withoutEnding (name ending : String) : String :=
  if name != ending && name.endsWith ending then String.ofList (name.toList.take (name.length - ending.length)) else name

/-- Prints the last names of paths. -/
def basename (call : Call) : Program :=
  let table : OptionTable := {
    letters := "as:z", stops := true
    names := [("multiple", 'a', .flag), ("suffix", 's', .needed), ("zero", 'z', .flag)] }
  withOptions call table 1 fun o =>
    let close := if o.has 'z' then "\x00" else "\n"
    let answer (names : List String) : Program := .answer call.name (String.join (names.map (· ++ close)))
    match o.operands, o.has 'a' || o.has 's' with
    | [], _ => misuse call "missing operand" 1
    | paths, true => answer (paths.map fun p => withoutEnding (baseName p) ((o.value? 's').getD ""))
    | [path], false => answer [baseName path]
    | [path, ending], false => answer [withoutEnding (baseName path) ending]
    | _ :: _ :: extra :: _, false => misuse call ("extra operand " ++ cited extra) 1

/-- A path without its last name. -/
def directoryName (path : String) : String :=
  let cs := (FileSystem.withoutSlashes path).toList
  let above := (cs.reverse.dropWhile (· != '/')).dropWhile (· == '/')
  if !above.isEmpty then String.ofList above.reverse else if FileSystem.isAbsolute path then "/" else "."

/-- Prints paths without their last names. -/
def dirname (call : Call) : Program :=
  withOptions call { letters := "z", names := [("zero", 'z', .flag)] } 1 fun o =>
    if o.operands.isEmpty then misuse call "missing operand" 1
    else .answer call.name
      (String.join (o.operands.map fun p => directoryName p ++ if o.has 'z' then "\x00" else "\n"))

/-! ## Numbers in a row -/

/-- A number of a row as it was given: its value, how many places it has, and how wide it is. -/
structure RowNumber where
  value : Decimal
  places : Nat := 0
  width : Nat := 1

/-- The number that a word is. -/
def RowNumber.read? (word : String) : Option RowNumber :=
  let cs := word.toList.dropWhile fun c => c == ' ' || ('\t' ≤ c && c ≤ '\r')
  let cs := if cs.head? == some '+' then cs.tail else cs
  let (sign, digits) := match cs with
    | '-' :: rest => (true, rest)
    | _ => (false, cs)
  match digits with
  | '0' :: x :: h :: rest =>
    if (x == 'x' || x == 'X') && (h :: rest).all fun c => (hexadecimal? c).isSome then
      let (n, _) := readDigits hexadecimal? 16 (rest.length + 1) 0 (h :: rest)
      some { value := { negative := sign, numerator := n } }
    else plain cs
  | _ => plain cs
where
  /-- A number in decimal digits. -/
  plain (cs : List Char) : Option RowNumber :=
    match Decimal.read? cs with
    | some (value, []) =>
      let mantissa := cs.takeWhile fun c => c != 'e' && c != 'E'
      let exponent := (Numeral.integer? (-5000) 5000 (String.ofList (cs.drop (mantissa.length + 1)))).getD 0
      let fraction := (mantissa.dropWhile (· != '.')).drop 1
      let whole := mantissa.takeWhile (· != '.')
      let width := mantissa.length - (if mantissa.contains '.' && fraction.isEmpty then 1 else 0) +
        (if mantissa.contains '.' && !fraction.isEmpty && !(whole.getLast?.any Char.isDigit) then 1 else 0)
      some {
        value, places := (Int.ofNat fraction.length - exponent).toNat
        width := (Int.ofNat width + max exponent 0).toNat }
    | _ => none

/-- The directive of a format for one number, with the text around it. -/
def rowFormat (format : String) : Except String (String × Directive × String) :=
  let bad (text : String) : Except String (String × Directive × String) := .error ("format " ++ cited format ++ " " ++ text)
  let rec split : List Char → List Char → Option (List Char × List Char)
    | '%' :: '%' :: cs, before => split cs ('%' :: before)
    | '%' :: cs, before => some (before.reverse, cs)
    | c :: cs, before => split cs (c :: before)
    | [], _ => none
  match split format.toList [] with
  | none => bad "has no % directive"
  | some (before, cs) =>
    let flags := cs.takeWhile "-+#0 '".toList.contains
    let cs := cs.drop flags.length
    let width := cs.takeWhile Char.isDigit
    let cs := cs.drop width.length
    let (precision, cs) := match cs with
      | '.' :: more => (some ((Numeral.digits? (more.takeWhile Char.isDigit)).getD 0), more.dropWhile Char.isDigit)
      | _ => (none, cs)
    let cs := if cs.head? == some 'L' then cs.tail else cs
    match cs with
    | [] => bad "ends in %"
    | c :: after =>
      if !"efgEFG".toList.contains c then bad ("has unknown %" ++ String.singleton c ++ " directive")
      else match split after [] with
        | some _ => bad "has too many % directives"
        | none =>
          let rest := ((String.ofList after).splitOn "%%")
          .ok (String.ofList before,
            { flags, width := (Numeral.digits? width).getD 0, precision, conversion := c }, "%".intercalate rest)

/-- How many numbers are written at once. -/
def rowBlock : Nat := 512

/-- Writes numbers in a row: the first, the step and the last as multiples of the same unit, or no last one. At most `steps` blocks
are written. -/
def writeRow (call : Call) (shown : Int → String) (between : String) (step : Int) (last : Option Int) :
    (steps : Nat) → (at_ : Int) → (isFirst : Bool) → Program
  | 0, _, _ => .exit 0
  | steps + 1, at_, isFirst =>
    let values := ((List.range rowBlock).map fun (i : Nat) => at_ + Int.ofNat i * step).takeWhile fun v =>
      last.all fun l => if 0 ≤ step then v ≤ l else l ≤ v
    let text := between.intercalate (values.map shown)
    let text := if isFirst || values.isEmpty then text else between ++ text
    if values.length < rowBlock then .answer call.name (text ++ if isFirst && values.isEmpty then "" else "\n")
    else .put text fun
      | .ok () => writeRow call shown between step last steps (at_ + rowBlock * step) false
      | .error e => refuse call ("write error: " ++ e.description) 1

/-- The words of a row with an end of the options before the first negative number, if that comes before all other numbers. At
most `fuel` words are looked at. -/
def protectNumbers : (fuel : Nat) → List String → List String
  | fuel + 1, w :: rest =>
    match w.toList with
    | '-' :: c :: _ =>
      if c.isDigit || c == '.' then "--" :: w :: rest
      else if w == "-s" || w == "-f" then w :: rest.take 1 ++ protectNumbers fuel (rest.drop 1)
      else w :: protectNumbers fuel rest
    | _ => w :: rest
  | _, words => words

/-- Prints numbers in a row. -/
def seq (call : Call) : Program :=
  let table : OptionTable := {
    letters := "f:s:w", stops := true
    names := [("format", 'f', .needed), ("separator", 's', .needed), ("equal-width", 'w', .flag)] }
  withOptions { call with arguments := protectNumbers call.arguments.length call.arguments } table 1 fun o =>
    match o.operands with
    | [] => misuse call "missing operand" 1
    | _ :: _ :: _ :: extra :: _ => misuse call ("extra operand " ++ cited extra) 1
    | words =>
      let isEndless (w : String) : Bool := ["inf", "infinity", "+inf"].contains w.toLower
      let isOdd (w : String) : Bool := ["nan", "-nan", "+nan"].contains w.toLower
      let bad := words.find? fun w => !isEndless w && (RowNumber.read? w).isNone
      let format := (o.value? 'f').map fun f => rowFormat f
      match bad, format with
      | some w, _ =>
        if isOdd w then misuse call ("invalid 'not-a-number' argument: " ++ cited w) 1
        else misuse call ("invalid floating point argument: " ++ cited w) 1
      | none, some (.error text) => refuse call text 1
      | none, format =>
        let one : RowNumber := { value := { numerator := 1 } }
        let number (w : String) : RowNumber := (RowNumber.read? w).getD one
        let (first, step, last) := match words with
          | [l] => (one, one, l)
          | [f, l] => (number f, one, l)
          | f :: s :: l :: _ => (number f, number s, l)
          | [] => (one, one, "1")
        if step.value.numerator = 0 then
          misuse call ("invalid Zero increment value: " ++ cited ((words[1]?).getD "")) 1
        else if o.has 'w' && o.has 'f' then
          misuse call "format string may not be specified when printing equal width strings" 1
        else
          let lastNumber := number last
          let unit := first.value.denominator * step.value.denominator * lastNumber.value.denominator
          let size (n : RowNumber) : Int :=
            let k : Int := n.value.numerator * (unit / n.value.denominator)
            if n.value.negative then -k else k
          let places := max first.places step.places
          let widthOf (n : RowNumber) : Nat :=
            n.width + places - n.places + (if n.places = 0 && 0 < places then 1 else 0) -
              if 0 < n.places && places = 0 then 1 else 0
          let directive : Directive := match format with
            | some (.ok (_, d, _)) => d
            | _ => {
              flags := if o.has 'w' then ['0'] else [], width := if o.has 'w' then max (widthOf first) (widthOf lastNumber) else 0
              precision := some places, conversion := 'f' }
          let (before, after) := match format with
            | some (.ok (before, _, after)) => (before, after)
            | _ => ("", "")
          let shown (v : Int) : String :=
            before ++ String.ofList (directive.showDecimal { negative := v < 0, numerator := v.natAbs, denominator := unit }) ++ after
          writeRow call shown ((o.value? 's').getD "\n") (size step) (if isEndless last then none else some (size lastNumber))
            Program.endless (size first) true

end JobShell.Machine.Tool
