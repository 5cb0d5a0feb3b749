import JobShell.Machine.Decimal
import JobShell.Machine.Escapes
import JobShell.Machine.Quoting

/-!
# Formats

A format is a text with directives, each of which shows one argument, and with escapes. It is used again and again until all
arguments have been shown; where an argument is missing, the empty text or zero stands for it. An argument that is not wholly
a number is complained about and shown as far as it is one. A script and a tool read formats by different rules.
-/

namespace JobShell.Machine

/-- What is wrong with an argument that ought to be a number. -/
inductive NumberFault where
  | notNumeric | trailing | outOfRange
  deriving DecidableEq

/-- How formats are read: the escapes of a format and of a shown text, how many binary digits a fraction has, the letters that
may stand before a conversion, and the conversions there are. `isTool` chooses between two wordings. -/
structure FormatRules where
  isTool : Bool
  format : EscapeRules
  text : EscapeRules
  bits : Nat
  modifiers : List Char
  conversions : List Char

namespace FormatRules

/-- The rules of a script. -/
def script : FormatRules where
  isTool := false
  format := {}
  text := .script
  bits := 53
  modifiers := []
  conversions := "bcsdiouxXeEfFgG".toList

/-- The rules of a tool. -/
def tool : FormatRules where
  isTool := true
  format := { hexadecimal := true, quote := true, ends := true }
  text := { EscapeRules.tool with quote := true }
  bits := 64
  modifiers := "hlLjtz".toList
  conversions := "bcsdiouxXeEfFgGq".toList

/-- What is said of an argument that is no number. -/
def complaint (r : FormatRules) (arg : String) (f : NumberFault) : String :=
  if r.isTool then
    cited arg ++ ": " ++ match f with
      | .notNumeric => "expected a numeric value"
      | .trailing => "value not completely converted"
      | .outOfRange => "Numerical result out of range"
  else
    arg ++ ": " ++ match f with
      | .notNumeric => "expected numeric value"
      | .trailing => "not completely converted"
      | .outOfRange => "Numerical result out of range"

end FormatRules

/-- A directive: its flags, its width and precision, and its conversion. -/
structure Directive where
  flags : List Char := []
  width : Nat := 0
  precision : Option Nat := none
  conversion : Char := 's'

namespace Directive

/-- A flag is set. -/
def has (d : Directive) (c : Char) : Bool := d.flags.contains c

/-- A text between spaces up to the width. -/
def pad (d : Directive) (cs : List Char) : List Char :=
  let gap := List.replicate (d.width - cs.length) ' '
  if d.has '-' then cs ++ gap else gap ++ cs

/-- A sign and digits, with spaces before them or zeros between them up to the width. -/
def padNumber (d : Directive) (sign ds : List Char) (zeros : Bool) : List Char :=
  if zeros && d.has '0' && !d.has '-' then
    sign ++ List.replicate (d.width - (sign.length + ds.length)) '0' ++ ds
  else d.pad (sign ++ ds)

/-- The sign of a number. -/
def sign (d : Directive) (negative : Bool) : List Char :=
  if negative then ['-'] else if d.has '+' then ['+'] else if d.has ' ' then [' '] else []

/-- A whole number. -/
def showInteger (d : Directive) (n : Int) : List Char :=
  let signed := d.conversion == 'd' || d.conversion == 'i'
  let value := if signed then n.natAbs else (n % Nat.pow 2 64).toNat
  let ds := match d.conversion with
    | 'o' => Nat.toDigits 8 value
    | 'x' => Nat.toDigits 16 value
    | 'X' => (Nat.toDigits 16 value).map Char.toUpper
    | _ => Nat.toDigits 10 value
  let ds := if d.precision == some 0 && value = 0 then [] else ds
  let ds := List.replicate (d.precision.getD 1 - ds.length) '0' ++ ds
  let ds := if d.has '#' && d.conversion == 'o' && ds.head? != some '0' then '0' :: ds else ds
  let before := if d.has '#' && value != 0 then
      if d.conversion == 'x' then ['0', 'x'] else if d.conversion == 'X' then ['0', 'X'] else []
    else []
  d.padNumber ((if signed then d.sign (n < 0) else []) ++ before) ds d.precision.isNone

/-- A number with a fraction. -/
def showDecimal (d : Directive) (x : Decimal) : List Char :=
  let precision := d.precision.getD 6
  let ds := match d.conversion.toLower with
    | 'e' => x.scientific precision (d.has '#') d.conversion
    | 'g' => x.general precision (d.has '#') (if d.conversion == 'g' then 'e' else 'E')
    | _ => x.fixed precision (d.has '#')
  d.padNumber (d.sign x.negative) ds true

/-- A text, cut at the precision. -/
def showText (d : Directive) (cs : List Char) : List Char :=
  d.pad (match d.precision with
    | some n => cs.take n
    | none => cs)

end Directive

/-- The whole number at the front of a text, of which the digits tell the base, and what follows it. -/
def readInteger (s : String) : Option (Int × List Char) :=
  let isGap (c : Char) : Bool := c == ' ' || ('\t' ≤ c && c ≤ '\r')
  let cs := s.toList.dropWhile isGap
  let (negative, cs) := match cs with
    | '-' :: cs => (true, cs)
    | '+' :: cs => (false, cs)
    | cs => (false, cs)
  let value (n : Nat) : Int := if negative then -Int.ofNat n else Int.ofNat n
  match cs with
  | '0' :: x :: c :: rest =>
    if (x == 'x' || x == 'X') && (hexadecimal? c).isSome then
      let (n, rest) := readDigits hexadecimal? 16 (rest.length + 1) 0 (c :: rest)
      some (value n, rest)
    else
      let (n, rest) := readDigits octal? 8 cs.length 0 cs
      some (value n, rest)
  | '0' :: _ =>
    let (n, rest) := readDigits octal? 8 cs.length 0 cs
    some (value n, rest)
  | _ =>
    let ds := cs.takeWhile Char.isDigit
    (Numeral.digits? ds).map fun n => (value n, cs.drop ds.length)

/-- An argument as a whole number, and what is wrong with it. -/
def integerOf (signed : Bool) (arg : String) : Int × Option NumberFault :=
  match readInteger arg with
  | none => (0, if arg.isEmpty then none else some .notNumeric)
  | some (n, rest) =>
    let (low, high) : Int × Int := if signed then (-(Nat.pow 2 63), Nat.pow 2 63 - 1) else (-(Nat.pow 2 64) + 1, Nat.pow 2 64 - 1)
    let fault : Option NumberFault :=
      if !rest.isEmpty then some .trailing else if n < low || high < n then some .outOfRange else none
    (if n < low then (if signed then low else high) else min n high, fault)

/-- The words for numbers that are none. -/
def specialNumber? (cs : List Char) : Option String :=
  let (sign, cs) := match cs with
    | '-' :: cs => ("-", cs)
    | '+' :: cs => ("", cs)
    | cs => ("", cs)
  match String.ofList (cs.map Char.toLower) with
  | "inf" | "infinity" => some (sign ++ "inf")
  | "nan" => some (sign ++ "nan")
  | _ => none

/-- What using a format has come to: what was written and complained about, latest first, the arguments left, and whether there is
to be no more. -/
structure Formatting where
  said : List (Bool × List Char) := []
  arguments : List String
  failed : Bool := false
  stopped : Bool := false
  fault : Option String := none

namespace Formatting

/-- Writes some octets. -/
def write (f : Formatting) (cs : List Char) : Formatting := { f with said := (false, cs) :: f.said }

/-- Complains. -/
def warn (f : Formatting) (text : String) (fails : Bool) : Formatting :=
  { f with said := (true, text.toList) :: f.said, failed := f.failed || fails }

/-- The next argument, if there is one. -/
def next (f : Formatting) : Option String × Formatting := (f.arguments.head?, { f with arguments := f.arguments.tail })

/-- The next argument as a whole number. -/
def nextInteger (f : Formatting) (r : FormatRules) (signed : Bool) : Int × Formatting :=
  let (arg, f) := f.next
  match arg.map String.toList with
  | none => (0, f)
  | some ('"' :: c :: more) | some ('\'' :: c :: more) =>
    (c.toNat, if r.isTool && !more.isEmpty then
      f.warn ("warning: " ++ String.ofList more ++ ": character(s) following character constant have been ignored") false
      else f)
  | some ['"'] | some ['\''] =>
    (0, if r.isTool then f.warn (r.complaint (arg.getD "") .notNumeric) true else f)
  | some cs =>
    match integerOf signed (String.ofList cs) with
    | (n, none) => (n, f)
    | (n, some fault) => (n, f.warn (r.complaint (String.ofList cs) fault) true)

/-- Shows the next argument as a number with a fraction. -/
def showNextDecimal (f : Formatting) (r : FormatRules) (d : Directive) : Formatting :=
  let (arg, f) := f.next
  let arg := arg.getD ""
  let cs := arg.toList.dropWhile fun c => c == ' ' || ('\t' ≤ c && c ≤ '\r')
  match cs with
  | '"' :: c :: _ | '\'' :: c :: _ => f.write (d.showDecimal { numerator := c.toNat })
  | _ =>
    match specialNumber? cs with
    | some word =>
      let word := if d.conversion.isUpper then word.map Char.toUpper else word
      f.write (d.pad word.toList)
    | none =>
      match Decimal.read? cs with
      | some (x, rest) =>
        let f := if rest.isEmpty then f else f.warn (r.complaint arg .trailing) true
        f.write (d.showDecimal (x.roundToBits r.bits))
      | none =>
        let f := if arg.isEmpty then f else f.warn (r.complaint arg .notNumeric) true
        f.write (d.showDecimal { numerator := 0 })

/-- Shows the next argument. -/
def present (f : Formatting) (r : FormatRules) (d : Directive) : Formatting :=
  match d.conversion with
  | 'd' | 'i' | 'o' | 'u' | 'x' | 'X' =>
    let (n, f) := f.nextInteger r (d.conversion == 'd' || d.conversion == 'i')
    f.write (d.showInteger n)
  | 'b' =>
    let (arg, f) := f.next
    let (cs, ended) := unescape r.text (arg.getD "")
    let f := f.write (d.showText cs)
    { f with stopped := ended }
  | 'c' =>
    let (arg, f) := f.next
    f.write (d.pad [((arg.getD "").toList.head?).getD '\x00'])
  | 's' | 'q' =>
    let (arg, f) := f.next
    f.write (d.showText (arg.getD "").toList)
  | _ => f.showNextDecimal r d

end Formatting

/-- A size in a directive: digits, or a star that takes it from the arguments; also the rest of the format. -/
def readSize (r : FormatRules) (f : Formatting) (cs : List Char) : Option Int × Formatting × List Char :=
  match cs with
  | '*' :: rest =>
    let (n, f) := f.nextInteger r true
    (some n, f, rest)
  | cs =>
    let ds := cs.takeWhile Char.isDigit
    ((Numeral.digits? ds).map Int.ofNat, f, cs.drop ds.length)

/-- Uses a format once. At most `fuel` parts of it are read. -/
def useFormat (r : FormatRules) : (fuel : Nat) → List Char → Formatting → Formatting
  | 0, _, f => f
  | _, [], f => f
  | fuel + 1, '\\' :: cs, f =>
    match readEscape r.format cs with
    | .octet c rest => useFormat r fuel rest (f.write [c])
    | .ended => { f with stopped := true }
    | .plain =>
      if r.isTool && cs.head? == some 'x' then { f with fault := some "missing hexadecimal number in escape" }
      else if r.isTool then match cs with
        | c :: rest => useFormat r fuel rest (f.write ['\\', c])
        | [] => f.write ['\\']
      else useFormat r fuel cs (f.write ['\\'])
  | fuel + 1, '%' :: '%' :: cs, f => useFormat r fuel cs (f.write ['%'])
  | fuel + 1, '%' :: cs, f =>
    let isFlag (c : Char) : Bool := "#-+ 0".toList.contains c || (r.isTool && (c == '\'' || c == 'I'))
    let flags := cs.takeWhile isFlag
    let (width, f, rest) := readSize r f (cs.drop flags.length)
    let (precision, f, rest) := match rest with
      | '.' :: rest =>
        let (p, f, rest) := readSize r f rest
        (some (p.getD 0), f, rest)
      | rest => (none, f, rest)
    let rest := rest.dropWhile r.modifiers.contains
    let flags := if width.any (· < 0) then '-' :: flags else flags
    let written (n : Nat) : String := String.ofList ('%' :: cs.take (cs.length - rest.length + n))
    match rest with
    | [] =>
      { f with fault := some (if r.isTool then written 0 ++ ": invalid conversion specification" else "missing format character") }
    | c :: rest =>
      if r.conversions.contains c then
        let f := f.present r
          { flags, width := (width.getD 0).natAbs, precision := (precision.filter (0 ≤ ·)).map Int.toNat, conversion := c }
        if f.stopped then f else useFormat r fuel rest f
      else
        { f with fault := some (written 1 ++ if r.isTool then ": invalid conversion specification" else ": invalid directive") }
  | fuel + 1, c :: cs, f =>
    let plain := (c :: cs).takeWhile fun c => c != '\\' && c != '%'
    useFormat r fuel ((c :: cs).drop plain.length) (f.write plain)

/-- Uses a format until all arguments have been shown. At most `fuel` uses are made. -/
def useFormatAll (r : FormatRules) (format : List Char) : (fuel : Nat) → Formatting → Formatting
  | 0, f => f
  | fuel + 1, f =>
    let after := useFormat r (format.length + 1) format f
    if after.stopped || after.fault.isSome || after.arguments.isEmpty then after
    else if after.arguments.length = f.arguments.length then
      if r.isTool then
        after.warn ("warning: ignoring excess arguments, starting with " ++ cited (after.arguments.headD "")) false
      else after
    else useFormatAll r format fuel after

/-- What a format makes of its arguments. -/
def formatWith (r : FormatRules) (format : String) (arguments : List String) : Formatting :=
  useFormatAll r format.toList (arguments.length + 1) { arguments }

end JobShell.Machine
