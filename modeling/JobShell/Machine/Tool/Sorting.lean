import JobShell.Machine.Decimal
import JobShell.Machine.Tool.Input

/-!
# Sorting lines

Lines are put in order by keys, each of which is a stretch of the line with an order of its own, and where all keys are equal by
all their octets. A key is given by the fields and octets it begins and ends with. Fields are parted by a separator, or begin
where blanks after other octets begin.
-/

namespace JobShell.Machine.Tool

/-- How texts are compared: what is passed over, whether case counts, and as what they are read. -/
structure KeyOrder where
  blanks : Bool := false
  dictionary : Bool := false
  folds : Bool := false
  printable : Bool := false
  kind : Char := ' '
  reversed : Bool := false
  deriving DecidableEq

/-- A key: the field and the octet in it where it begins, both from one on, and the field and the number of octets in it where it
ends; none of them means all of the field. -/
structure SortKey where
  field : Nat := 1
  octet : Nat := 1
  last : Option (Nat × Nat) := none
  order : KeyOrder := {}
  blanksBeforeEnd : Bool := false

namespace KeyOrder

/-- The order with one more letter. -/
def withLetter (k : KeyOrder) (c : Char) : Option KeyOrder :=
  match c with
  | 'b' => some { k with blanks := true }
  | 'd' => some { k with dictionary := true }
  | 'f' => some { k with folds := true }
  | 'i' => some { k with printable := true }
  | 'r' => some { k with reversed := true }
  | 'n' | 'g' | 'h' | 'M' | 'V' | 'R' => some { k with kind := c }
  | _ => none

/-- A blank within a line. -/
def isBlank (c : Char) : Bool := c == ' ' || c == '\t'

/-- The months by the letters they begin with. -/
def months : List String := ["JAN", "FEB", "MAR", "APR", "MAY", "JUN", "JUL", "AUG", "SEP", "OCT", "NOV", "DEC"]

/-- The number at the front of a text, without an exponent; zero where there is none. -/
def leadingDecimal (cs : List Char) : Decimal × List Char :=
  let cs := cs.dropWhile isBlank
  let (negative, cs) := match cs with
    | '-' :: rest => (true, rest)
    | _ => (false, cs)
  let whole := cs.takeWhile Char.isDigit
  let rest := cs.drop whole.length
  let fraction := match rest with
    | '.' :: more => more.takeWhile Char.isDigit
    | _ => []
  let rest := if fraction.isEmpty then rest else rest.drop (fraction.length + 1)
  let n := (Numeral.digits? (whole ++ fraction)).getD 0
  ({ negative := negative && n != 0, numerator := n, denominator := Nat.pow 10 fraction.length }, rest)

/-- How two numbers compare. -/
def compareDecimals (a b : Decimal) : Ordering :=
  let value (x : Decimal) (d : Nat) : Int := (if x.negative then -Int.ofNat x.numerator else Int.ofNat x.numerator) * Int.ofNat d
  compare (value a b.denominator) (value b a.denominator)

/-- Texts cut into runs of digits and of other octets; at most `fuel` runs. -/
def runs : (fuel : Nat) → List Char → List (Bool × List Char)
  | 0, _ => []
  | _, [] => []
  | fuel + 1, c :: cs =>
    let run := (c :: cs).takeWhile fun d => d.isDigit == c.isDigit
    (c.isDigit, run) :: runs fuel ((c :: cs).drop run.length)

/-- How two lists of runs compare; digits by their values. -/
def compareRuns : List (Bool × List Char) → List (Bool × List Char) → Ordering
  | [], [] => .eq
  | [], _ => .lt
  | _, [] => .gt
  | (true, a) :: as, (true, b) :: bs =>
    (compare ((Numeral.digits? a).getD 0) ((Numeral.digits? b).getD 0)).then (compareRuns as bs)
  | (_, a) :: as, (_, b) :: bs => (compare (String.ofList a) (String.ofList b)).then (compareRuns as bs)

/-- How two keys compare, before the order is reversed. -/
def compareTexts (k : KeyOrder) (a b : List Char) : Ordering :=
  match k.kind with
  | 'n' => compareDecimals (leadingDecimal a).1 (leadingDecimal b).1
  | 'g' =>
    match Decimal.read? (a.dropWhile isBlank), Decimal.read? (b.dropWhile isBlank) with
    | none, none => .eq
    | none, some _ => .lt
    | some _, none => .gt
    | some x, some y => compareDecimals x.1 y.1
  | 'h' =>
    let (x, restX) := leadingDecimal a
    let (y, restY) := leadingDecimal b
    let power (x : Decimal) (rest : List Char) : Int :=
      let p : Nat := if x.numerator = 0 then 0 else ((rest.head?.bind fun c => "KMGTPEZY".toList.idxOf? c.toUpper).map (· + 1)).getD 0
      if x.negative then -Int.ofNat p else Int.ofNat p
    (compare (power x restX) (power y restY)).then (compareDecimals x y)
  | 'M' =>
    let month (cs : List Char) : Nat :=
      ((months.idxOf? (String.ofList (((cs.dropWhile isBlank).take 3).map Char.toUpper))).map (· + 1)).getD 0
    compare (month a) (month b)
  | 'V' => (compareRuns (runs a.length a) (runs b.length b)).then (compare (String.ofList a) (String.ofList b))
  | _ =>
    let kept (cs : List Char) : List Char :=
      let cs := if k.dictionary then cs.filter fun c => isBlank c || c.isAlphanum else cs
      let cs := if k.printable then cs.filter fun c => ' ' ≤ c && c ≤ '~' else cs
      if k.folds then cs.map Char.toUpper else cs
    compare (String.ofList (kept a)) (String.ofList (kept b))

/-- How two keys compare. -/
def compare (k : KeyOrder) (a b : List Char) : Ordering := if k.reversed then (k.compareTexts a b).swap else k.compareTexts a b

end KeyOrder

/-- A line from the beginning of a field on. At most `fields` fields are passed over. -/
def fromField (separator : Option Char) : (fields : Nat) → List Char → List Char
  | 0, cs => cs
  | n + 1, cs =>
    match separator with
    | some s => match cs.dropWhile (· != s) with
      | [] => []
      | _ :: rest => fromField separator n rest
    | none => fromField separator n ((cs.dropWhile KeyOrder.isBlank).dropWhile fun c => !KeyOrder.isBlank c)

/-- What follows a field. -/
def afterField (separator : Option Char) (cs : List Char) : List Char :=
  match separator with
  | some s => cs.dropWhile (· != s)
  | none => (cs.dropWhile KeyOrder.isBlank).dropWhile fun c => !KeyOrder.isBlank c

/-- The stretch of a line that is a key. -/
def SortKey.of (k : SortKey) (separator : Option Char) (line : List Char) : List Char :=
  let start := fromField separator (k.field - 1) line
  let start := (if k.order.blanks then start.dropWhile KeyOrder.isBlank else start).drop (k.octet - 1)
  match k.last with
  | none => start
  | some (field, octets) =>
    let at_ := fromField separator (field - 1) line
    let after := if octets = 0 then afterField separator at_
      else (if k.blanksBeforeEnd then at_.dropWhile KeyOrder.isBlank else at_).drop octets
    start.take (start.length - after.length)

/-- How lines are sorted. -/
structure Sorting where
  keys : List SortKey := []
  order : KeyOrder := {}
  separator : Option Char := none
  stable : Bool := false
  unique : Bool := false

/-- How two lines compare by their keys. -/
def Sorting.compareKeys (s : Sorting) (a b : String) : Ordering :=
  if s.keys.isEmpty then
    let start (l : String) : List Char := if s.order.blanks then l.toList.dropWhile KeyOrder.isBlank else l.toList
    s.order.compare (start a) (start b)
  else s.keys.foldl (fun o k =>
    o.then (k.order.compare (k.of s.separator a.toList) (k.of s.separator b.toList))) .eq

/-- How two lines compare. -/
def Sorting.compare (s : Sorting) (a b : String) : Ordering :=
  (s.compareKeys a b).then (if s.stable || s.unique then .eq
    else if s.order.reversed then Ord.compare b a else Ord.compare a b)

/-- The first of lines with equal keys. -/
def Sorting.withoutRepeats (s : Sorting) (lines : List String) : List String :=
  (lines.foldl (fun (kept : List String) l => match kept with
    | [] => [l]
    | k :: _ => if s.compareKeys k l == .eq then kept else l :: kept) []).reverse

/-- Reads where a key begins or ends: a field, an octet of it, and letters for the order. -/
def readPlace (cs : List Char) : Option (Nat × Option Nat × List Char) :=
  let ds := cs.takeWhile Char.isDigit
  (Numeral.digits? ds).map fun field =>
    match cs.drop ds.length with
    | '.' :: rest =>
      let es := rest.takeWhile Char.isDigit
      (field, some ((Numeral.digits? es).getD 0), rest.drop es.length)
    | rest => (field, none, rest)

/-- The key that a word describes, or what is wrong with it. -/
def readKey (word : String) : Except String SortKey :=
  let orderOf (letters : List Char) : Option KeyOrder := letters.foldlM KeyOrder.withLetter {}
  let stray : Except String SortKey := .error ("stray character in field spec: invalid field specification " ++ cited word)
  match readPlace word.toList with
  | none => .error ("invalid number at field start: invalid count at start of " ++ cited word)
  | some (0, _, _) => .error ("field number is zero: invalid field specification " ++ cited word)
  | some (_, some 0, _) => .error ("character offset is zero: invalid field specification " ++ cited word)
  | some (field, octet, rest) =>
    let letters := rest.takeWhile (· != ',')
    match orderOf letters, rest.drop letters.length with
    | none, _ => stray
    | some order, [] => .ok { field, octet := octet.getD 1, order }
    | some order, _ :: rest =>
      match readPlace rest with
      | none => .error ("invalid number after ',': invalid count at start of " ++ cited (String.ofList rest))
      | some (0, _, _) => .error ("field number is zero: invalid field specification " ++ cited word)
      | some (last, octets, more) =>
        match orderOf more, orderOf (letters ++ more) with
        | some endOrder, some both =>
          .ok { field, octet := octet.getD 1, last := some (last, octets.getD 0), blanksBeforeEnd := endOrder.blanks
                order := { both with blanks := order.blanks } }
        | _, _ => stray

/-- Sorts the lines of its inputs, or checks whether they are sorted. -/
def sort (call : Call) : Program :=
  let table : OptionTable := {
    letters := "bdfghiMnRrVcCk:mo:sS:t:T:uz"
    names := [("ignore-leading-blanks", 'b', .flag), ("dictionary-order", 'd', .flag), ("ignore-case", 'f', .flag),
      ("general-numeric-sort", 'g', .flag), ("human-numeric-sort", 'h', .flag), ("ignore-nonprinting", 'i', .flag),
      ("month-sort", 'M', .flag), ("numeric-sort", 'n', .flag), ("reverse", 'r', .flag), ("version-sort", 'V', .flag),
      ("check", 'c', .optional), ("key", 'k', .needed), ("merge", 'm', .flag), ("output", 'o', .needed), ("stable", 's', .flag),
      ("field-separator", 't', .needed), ("unique", 'u', .flag), ("zero-terminated", 'z', .flag)] }
  withOptions call table 2 fun o =>
    let order := ((o.given.map (·.1)).filterMap fun c => if "bdfghiMnRrV".toList.contains c then some c else none).foldl
      (fun (k : KeyOrder) c => (k.withLetter c).getD k) {}
    let keys := ((o.given.filter (·.1 == 'k')).map (·.2)).mapM readKey
    let separator : Except String (Option Char) := match o.value? 't' with
      | none => .ok none
      | some "\\0" => .ok (some '\x00')
      | some word => match word.toList with
        | [c] => .ok (some c)
        | [] => .error "empty tab"
        | _ => .error ("multi-character tab " ++ cited word)
    match keys, separator with
    | .error text, _ | _, .error text => refuse call text 2
    | .ok keys, .ok separator =>
      let keys := keys.map fun k => if k.order = {} && !k.blanksBeforeEnd then { k with order } else k
      let s : Sorting := { keys, order, separator, stable := o.has 's', unique := o.has 'u' }
      let ending := if o.has 'z' then '\x00' else '\n'
      if o.has 'c' || o.has 'C' then
        match o.operands with
        | _ :: extra :: _ => misuse call ("extra operand " ++ cited extra ++ " not allowed with -c") 2
        | files => gather (files.headD "-" :: []) [] fun texts => check o s (files.headD "-") 1 (cut ending (String.join texts))
      else gather (orInput o.operands) [] fun texts =>
        let lines := (texts.flatMap (cut ending)).mergeSort fun a b => s.compare a b != .gt
        let lines := if s.unique then s.withoutRepeats lines else lines
        let text := String.join (lines.map fun l => l.push ending)
        match o.value? 'o' with
        | none => .answer call.name text
        | some file => .openFile none file .write fun
          | .ok d => .write d text fun _ => .exit 0
          | .error e => refuse call ("open failed: " ++ bare file ++ ": " ++ e.description) 2
where
  /-- The lines of a text without their ends. -/
  cut (ending : Char) (text : String) : List String :=
    if ending == '\n' then linesOf text
    else
      let parts := text.splitOn (String.singleton ending)
      if parts.getLast? == some "" then parts.dropLast else parts
  /-- Reads all inputs, of which none may fail. -/
  gather : List String → List String → (List String → Program) → Program
    | [], texts, next => next texts.reverse
    | file :: rest, texts, next => readInput file fun i =>
      match i.fault with
      | none => gather rest (i.text :: texts) next
      | some (.opening e) => refuse call ("cannot read: " ++ bare file ++ ": " ++ e.description) 2
      | some (.reading e) => refuse call ("read failed: " ++ bare file ++ ": " ++ e.description) 2
  /-- Looks for the first line out of order. -/
  check (o : Options) (s : Sorting) (file : String) : (number : Nat) → List String → Program
    | number, a :: b :: rest =>
      let disorder := match s.compare a b with
        | .gt => true
        | .eq => s.unique
        | .lt => false
      if disorder then
        if o.has 'C' then .exit 1
        else .fail (message call (file ++ ":" ++ toString (number + 1) ++ ": disorder: " ++ b)) 1
      else check o s file (number + 1) (b :: rest)
    | _, _ => .exit 0

end JobShell.Machine.Tool
