import JobShell.Machine.Program
import JobShell.Machine.Quoting
import JobShell.Text.Numeral

/-!
# Conditions

The conditions of `test` and `[`: about texts, about integers and about files. They are joined by `-a` and `-o`, of which the
first binds tighter, negated by `!` and put in brackets. What a word means depends on how many words there are: with few of them
an operator can be an operand. A script and a tool differ in which readings they try first and in what they say of words that
make no condition.
-/

namespace JobShell.Machine

/-- What conditions can ask about: the files, the working directory, and what descriptors lead to. -/
structure Surroundings where
  files : FileSystem
  directory : Inode
  channel : Descriptor → Option Channel

namespace Condition

/-- The operators with one operand, about texts and files. -/
def unaryOperators : List String :=
  ["-b", "-c", "-d", "-e", "-f", "-g", "-G", "-h", "-k", "-L", "-n", "-O", "-p", "-r", "-s", "-S", "-t", "-u", "-w", "-x", "-z"]

/-- The operators with two operands. -/
def binaryOperators : List String :=
  ["=", "!=", "-eq", "-ne", "-ge", "-gt", "-le", "-lt", "-nt", "-ot", "-ef"]

/-- The integer that a word is, with blanks around it. -/
def integer? (word : String) : Option Int :=
  let isGap (c : Char) : Bool := c == ' ' || ('\t' ≤ c && c ≤ '\r')
  let cs := ((word.toList.dropWhile isGap).reverse.dropWhile isGap).reverse
  Numeral.integer? (-(Nat.pow 2 200)) (Nat.pow 2 200) (String.ofList cs)

/-- A condition about one operand; the operator is one of a single letter after a dash. -/
def unary (w : Surroundings) (operator operand : String) : Bool :=
  let node := w.files.nodeAt? w.directory operand
  match operator with
  | "-n" => operand != ""
  | "-z" => operand == ""
  | "-e" | "-O" | "-G" => node.isSome
  | "-r" => node.any (·.isReadable)
  | "-w" => node.any (·.isWritable)
  | "-x" => node.any (·.isPassable)
  | "-f" => node.any (·.isFile)
  | "-d" => node.any (·.isDirectory)
  | "-s" => match node with
    | some (.file text _) => text != ""
    | some (.directory ..) | some (.tool _) => true
    | _ => false
  | "-h" | "-L" => match (w.files.lookUp w.directory operand false).toOption with
    | some (_, .link _) => true
    | _ => false
  | "-p" => match node with
    | some (.queue _) => true
    | some (.device (.descriptor d)) => match w.channel d with
      | some (.pipeRead _) | some (.pipeWrite _) => true
      | _ => false
    | _ => false
  | "-c" => match node with
    | some (.device _) => true
    | _ => false
  | _ => false

/-- A descriptor leads to the terminal. -/
def isTerminal (w : Surroundings) (n : Int) : Bool := 0 ≤ n && w.channel n.toNat == some (.device .terminal)

/-- A condition about two integers. -/
def compare (operator : String) (a b : Int) : Bool :=
  match operator with
  | "-eq" => a == b
  | "-ne" => a != b
  | "-lt" => a < b
  | "-le" => a ≤ b
  | "-gt" => b < a
  | _ => b ≤ a

/-- The operators that compare integers. -/
def integerOperators : List String := ["-eq", "-ne", "-lt", "-le", "-gt", "-ge"]

/-- A condition about two texts or two files. Files have no times, so that none is newer than another. -/
def binary (w : Surroundings) (left operator right : String) : Bool :=
  match operator with
  | "=" | "==" => left == right
  | "!=" => left != right
  | "<" => left < right
  | ">" => right < left
  | "-ef" => match w.files.resolve w.directory left true, w.files.resolve w.directory right true with
    | .ok i, .ok j => i == j
    | _, _ => false
  | _ => false

/-! ## In a script -/

/-- The operators with two operands in a script. -/
def scriptBinary : List String := "<" :: ">" :: binaryOperators

/-- What a word is taken for: an operand, an operator with one or two operands, something that joins conditions, or no word. -/
inductive Role where
  | operand | unary | binary | negation | both | either | opening | closing | none
  deriving DecidableEq

/-- What the first word is taken for. -/
def role : List String → Role
  | [] => .none
  | s :: rest =>
    if unaryOperators.contains s then
      let isOperand := match rest with
        | [] => true
        | [_] => false
        | t :: _ => scriptBinary.contains t
      if isOperand then .operand else .unary
    else if scriptBinary.contains s then .binary
    else match s with
      | "!" => .negation
      | "-a" => .both
      | "-o" => .either
      | "(" => if rest.isEmpty then .operand else .opening
      | ")" => .closing
      | _ => .operand

mutual

/-- Reads conditions joined by `-o`. Each reader is given the words from where it begins, and what the first one is taken for;
it leaves the last word it used at the front. At most `fuel` readers are nested. -/
def readEither (w : Surroundings) : (fuel : Nat) → (done : Bool) → Role → List String → Except String (Bool × List String)
  | 0, done, _, words => .ok (done, words)
  | fuel + 1, done, r, words => do
    let (b, words) ← readBoth w fuel true r words
    let done := done || b
    if role (words.drop 1) = .either then readEither w fuel done (role (words.drop 2)) (words.drop 2) else .ok (done, words)

/-- Reads conditions joined by `-a`. -/
def readBoth (w : Surroundings) : (fuel : Nat) → (done : Bool) → Role → List String → Except String (Bool × List String)
  | 0, done, _, words => .ok (done, words)
  | fuel + 1, done, r, words => do
    let (b, words) ← readNegated w fuel r words
    let done := done && b
    if role (words.drop 1) = .both then readBoth w fuel done (role (words.drop 2)) (words.drop 2) else .ok (done, words)

/-- Reads a condition that may be negated. -/
def readNegated (w : Surroundings) : (fuel : Nat) → Role → List String → Except String (Bool × List String)
  | 0, _, words => .ok (false, words)
  | fuel + 1, r, words => do
    if r = .negation then
      let next := role (words.drop 1)
      let (b, words) ← readNegated w fuel next (if next = .none then words else words.drop 1)
      .ok (!b, words)
    else readPrimary w fuel r words

/-- Reads a condition that is not joined from others, or one in brackets. -/
def readPrimary (w : Surroundings) : (fuel : Nat) → Role → List String → Except String (Bool × List String)
  | 0, _, words => .ok (false, words)
  | fuel + 1, r, words => do
    let integer (s : String) : Except String Int := match integer? s with
      | some n => if -(Nat.pow 2 63) ≤ n && n < Nat.pow 2 63 then .ok n else .error ("Illegal number: " ++ s)
      | none => .error ("Illegal number: " ++ s)
    if r = .none then .ok (false, words)
    else if r = .opening then
      let inside := words.drop 1
      if role inside = .closing then .ok (false, inside)
      else
        let (b, words) ← readEither w fuel false (role inside) inside
        if role (words.drop 1) = .closing then .ok (b, words.drop 1) else .error "closing paren expected"
    else match r, words with
      | .unary, operator :: operand :: rest =>
        if operator == "-t" then .ok (isTerminal w (← integer operand), operand :: rest)
        else .ok (unary w operator operand, operand :: rest)
      | .unary, [operator] => .error (operator ++ ": argument expected")
      | _, left :: operator :: rest =>
        if role (operator :: rest) = .binary then
          match rest with
          | [] => .error (operator ++ ": argument expected")
          | right :: _ =>
            if integerOperators.contains operator then
              .ok (compare operator (← integer left) (← integer right), rest)
            else .ok (binary w left operator right, rest)
        else .ok (left != "", words)
      | _, [left] => .ok (left != "", words)
      | _, [] => .ok (false, [])

end

/-- The value of a condition in a script. At most `fuel` negations come before it. -/
def scriptValue (w : Surroundings) : (fuel : Nat) → List String → Except String Bool
  | 0, _ => .ok false
  | _, [] => .ok false
  | fuel + 1, words => do
    let read (r : Role) (words : List String) : Except String Bool := do
      let (b, left) ← readEither w (8 * words.length + 8) false r words
      match left with
      | first :: _ :: _ => .error (if first.isEmpty then "unexpected operator" else first ++ ": unexpected operator")
      | _ => .ok b
    let bracketed := words.length = 3 || words.length = 4
    if words.length = 3 && scriptBinary.contains (words[1]?.getD "") then read .operand words
    else if bracketed && words.head? == some "(" && words.getLast? == some ")" then
      read (role (words.drop 1).dropLast) (words.drop 1).dropLast
    else if bracketed && words.head? == some "!" then return !(← scriptValue w fuel (words.drop 1))
    else read (role words) words

/-! ## In a tool -/

/-- The operators with two operands in a tool. -/
def toolBinary : List String := "==" :: binaryOperators

/-- What is said where a word is missing at the end of all words. -/
def missingAfter (all : List String) : String := "missing argument after " ++ cited (all.getLast?.getD "")

/-- The condition that an operator and its operand make, and the words after them. -/
def toolUnary (w : Surroundings) (all : List String) : List String → Except String (Bool × List String)
  | operator :: operand :: rest =>
    if operator == "-t" then
      match integer? operand with
      | some n => .ok (isTerminal w n, rest)
      | none => .error ("invalid integer " ++ cited operand)
    else if unaryOperators.contains operator || operator == "-N" then .ok (unary w operator operand, rest)
    else .error (cited operator ++ ": unary operator expected")
  | [operator] =>
    if unaryOperators.contains operator || operator == "-N" then .error (missingAfter all)
    else .error (cited operator ++ ": unary operator expected")
  | [] => .error (missingAfter all)

/-- The condition that two operands and the operator between them make, and the words after them. -/
def toolBinaryValue (w : Surroundings) : List String → Except String (Bool × List String)
  | left :: operator :: right :: rest =>
    if integerOperators.contains operator then
      match integer? left, integer? right with
      | none, _ => .error ("invalid integer " ++ cited left)
      | _, none => .error ("invalid integer " ++ cited right)
      | some a, some b => .ok (compare operator a b, rest)
    else if operator == "-nt" then
      .ok (w.files.exists? w.directory left && !w.files.exists? w.directory right, rest)
    else if operator == "-ot" then
      .ok (!w.files.exists? w.directory left && w.files.exists? w.directory right, rest)
    else .ok (binary w left operator right, rest)
  | _ => .ok (false, [])

/-- A word of a dash and one more character. -/
def isSwitch (s : String) : Bool := s.length = 2 && s.startsWith "-"

mutual

/-- Reads a condition of so many words. -/
def readCount (w : Surroundings) (all : List String) : (fuel : Nat) → (count : Nat) → List String →
    Except String (Bool × List String)
  | 0, _, words => .ok (false, words)
  | fuel + 1, count, words => do
    match count, words with
    | 1, first :: rest => .ok (first != "", rest)
    | 2, first :: rest =>
      if first == "!" then
        match rest with
        | [] => .error (missingAfter all)
        | second :: rest => .ok (second == "", rest)
      else if isSwitch first then toolUnary w all words
      else .error (missingAfter all)
    | 3, first :: second :: third :: rest =>
      if toolBinary.contains second then toolBinaryValue w words
      else if first == "!" then do
        let (b, words) ← readCount w all fuel 2 (second :: third :: rest)
        .ok (!b, words)
      else if first == "(" && third == ")" then .ok (second != "", rest)
      else if second == "-a" || second == "-o" then readJoined w all fuel words
      else .error (cited second ++ ": binary operator expected")
    | 4, first :: rest =>
      if first == "!" then do
        let (b, words) ← readCount w all fuel 3 rest
        .ok (!b, words)
      else if first == "(" && rest[2]? == some ")" then do
        let (b, words) ← readCount w all fuel 2 rest
        .ok (b, words.drop 1)
      else readJoined w all fuel words
    | _, words => readJoined w all fuel words

/-- Reads conditions joined by `-o`. -/
def readJoined (w : Surroundings) (all : List String) : (fuel : Nat) → List String → Except String (Bool × List String)
  | 0, words => .ok (false, words)
  | fuel + 1, words => do
    let (a, words) ← readTerms w all fuel words
    match words with
    | "-o" :: rest =>
      if rest.isEmpty then .error (missingAfter all)
      else
        let (b, words) ← readJoined w all fuel rest
        .ok (a || b, words)
    | words => .ok (a, words)

/-- Reads conditions joined by `-a`. -/
def readTerms (w : Surroundings) (all : List String) : (fuel : Nat) → List String → Except String (Bool × List String)
  | 0, words => .ok (false, words)
  | fuel + 1, words => do
    let (a, words) ← readTerm w all fuel words
    match words with
    | "-a" :: rest =>
      if rest.isEmpty then .error (missingAfter all)
      else
        let (b, words) ← readTerms w all fuel rest
        .ok (a && b, words)
    | words => .ok (a, words)

/-- Reads a condition that is not joined from others, or one in brackets. -/
def readTerm (w : Surroundings) (all : List String) : (fuel : Nat) → List String → Except String (Bool × List String)
  | 0, words => .ok (false, words)
  | fuel + 1, words => do
    match words with
    | [] => .error (missingAfter all)
    | "!" :: rest =>
      let (b, words) ← readTerm w all fuel rest
      .ok (!b, words)
    | "(" :: rest =>
      if rest.isEmpty then .error (missingAfter all)
      else
        let inside := (rest.takeWhile (· != ")")).length
        let count := if 4 ≤ inside then rest.length else max inside 1
        let (b, words) ← readCount w all fuel count rest
        match words with
        | [] => .error "')' expected"
        | ")" :: words => .ok (b, words)
        | word :: _ => .error ("')' expected, found " ++ cited word)
    | first :: rest =>
      if 2 ≤ rest.length && toolBinary.contains (rest.headD "") then toolBinaryValue w words
      else if isSwitch first then toolUnary w all words
      else .ok (first != "", rest)

end

/-- The value of a condition in a tool. -/
def toolValue (w : Surroundings) (words : List String) : Except String Bool := do
  if words.isEmpty then return false
  let (b, left) ← readCount w words (8 * words.length + 8) words.length words
  match left with
  | [] => return b
  | word :: _ => throw ("extra argument " ++ cited word)

end Condition

end JobShell.Machine
