import JobShell.Text.Numeral

/-!
# Arithmetic

Expressions on integers of 64 binary digits, with the operators of C but for steps and commas. A variable stands for the number
that its value is written as, and an empty one for zero. What is not evaluated, because a condition passes it over, cannot
fail.
-/

namespace JobShell.Machine.Script.Arithmetic

/-- An operator with two operands that are both evaluated. -/
inductive Operator where
  | times | over | rest | plus | minus | left | right | below | atMost | above | atLeast | equal | unequal
  | bitAnd | bitXor | bitOr
  deriving DecidableEq, Repr

/-- An operator with one operand. -/
inductive Sign where
  | negative | negation | complement
  deriving DecidableEq, Repr

/-- An expression. -/
inductive Expression where
  | number (n : Int)
  | variable (name : String)
  | signed (sign : Sign) (e : Expression)
  | joined (o : Operator) (a b : Expression)
  | both (a b : Expression)
  | either (a b : Expression)
  | choice (condition yes no : Expression)
  | assign (name : String) (o : Option Operator) (e : Expression)
  deriving Repr

/-- Why an expression has no value: it is written wrongly, it divides by zero, or a value in it is no number. -/
inductive Fault where
  | expecting (what : String)
  | divisionByZero
  | illegalNumber (text : String)
  deriving DecidableEq, Repr

/-- A token of an expression. -/
inductive Token where
  | number (n : Int)
  | name (s : String)
  | sign (s : String)
  deriving DecidableEq, Repr

/-- The number with the same 64 binary digits, read with a sign. -/
def wrap (i : Int) : Int := i.bmod (Nat.pow 2 64)

/-- The value of a digit in a base up to sixteen. -/
def digit? (base : Nat) (c : Char) : Option Nat :=
  let n := if c.isDigit then c.toNat - '0'.toNat
    else if 'a' ≤ c && c ≤ 'f' then c.toNat - 'a'.toNat + 10
    else if 'A' ≤ c && c ≤ 'F' then c.toNat - 'A'.toNat + 10 else 16
  if n < base then some n else none

/-- The number that digits at the front stand for, and the rest: hexadecimal after `0x`, octal after `0`, else decimal. One that
is too large is the largest. -/
def readNumber (cs : List Char) : Nat × List Char :=
  let (base, cs) := match cs with
    | '0' :: 'x' :: d :: rest => if (digit? 16 d).isSome then (16, d :: rest) else (8, cs)
    | '0' :: 'X' :: d :: rest => if (digit? 16 d).isSome then (16, d :: rest) else (8, cs)
    | '0' :: _ => (8, cs)
    | _ => (10, cs)
  let digits := cs.takeWhile fun c => (digit? base c).isSome
  (min (digits.foldl (fun n c => base * n + (digit? base c).getD 0) 0) (Nat.pow 2 63 - 1), cs.drop digits.length)

/-- A blank of an expression. -/
def isGap (c : Char) : Bool := c == ' ' || ('\t' ≤ c && c ≤ '\r')

/-- The signs, longer ones before the ones they begin with. -/
def signs : List String :=
  ["<<=", ">>=", "<<", ">>", "<=", ">=", "==", "!=", "&&", "||", "*=", "/=", "%=", "+=", "-=", "&=", "^=", "|=",
    "<", ">", "=", "!", "&", "|", "*", "/", "%", "+", "-", "^", "~", "?", ":", "(", ")"]

/-- The tokens of an expression; anything else is a token of its own. At most `fuel` of them are read. -/
def tokens : (fuel : Nat) → List Char → List Token
  | 0, _ => []
  | _, [] => []
  | fuel + 1, c :: cs =>
    if isGap c then tokens fuel cs
    else if c.isDigit then let (n, rest) := readNumber (c :: cs); .number n :: tokens fuel rest
    else if c.isAlpha || c == '_' then
      let name := (c :: cs).takeWhile fun c => c.isAlphanum || c == '_'
      .name (String.ofList name) :: tokens fuel ((c :: cs).drop name.length)
    else match signs.find? fun s => s.toList.isPrefixOf (c :: cs) with
      | some s => .sign s :: tokens fuel ((c :: cs).drop s.length)
      | none => [.sign (String.singleton c)]

/-- The operator of a sign and how loosely it binds. -/
def operator? : String → Option (Operator × Nat)
  | "*" => some (.times, 0)
  | "/" => some (.over, 0)
  | "%" => some (.rest, 0)
  | "+" => some (.plus, 1)
  | "-" => some (.minus, 1)
  | "<<" => some (.left, 2)
  | ">>" => some (.right, 2)
  | "<" => some (.below, 3)
  | "<=" => some (.atMost, 3)
  | ">" => some (.above, 3)
  | ">=" => some (.atLeast, 3)
  | "==" => some (.equal, 4)
  | "!=" => some (.unequal, 4)
  | "&" => some (.bitAnd, 5)
  | "^" => some (.bitXor, 6)
  | "|" => some (.bitOr, 7)
  | _ => none

/-- The operator of a sign that assigns; nothing but to assign for the plain one. -/
def assignment? (s : String) : Option (Option Operator) :=
  if s == "=" then some none
  else if ["*=", "/=", "%=", "+=", "-=", "<<=", ">>=", "&=", "^=", "|="].contains s then
    (operator? (String.ofList s.toList.dropLast)).map fun o => some o.1
  else none

/-- How loosely the last of the operators binds. -/
def loosest : Nat := 7

/-- What a reader of expressions gives: an expression and the tokens after it. -/
abbrev Read := Except Fault (Expression × List Token)

mutual

/-- Reads an assignment or what is none. -/
def readAssignment : (fuel : Nat) → List Token → Read
  | 0, _ => .error (.expecting "primary")
  | fuel + 1, ts =>
    match ts with
    | .name x :: .sign s :: rest =>
      match assignment? s with
      | some o => do
        let (e, rest) ← readAssignment fuel rest
        .ok (.assign x o e, rest)
      | none => readChoice fuel ts
    | _ => readChoice fuel ts

/-- Reads a choice between two expressions, or the condition alone. -/
def readChoice : (fuel : Nat) → List Token → Read
  | 0, _ => .error (.expecting "primary")
  | fuel + 1, ts => do
    let (c, ts) ← readEither fuel ts
    match ts with
    | .sign "?" :: ts =>
      let (yes, ts) ← readAssignment fuel ts
      match ts with
      | .sign ":" :: ts =>
        let (no, ts) ← readChoice fuel ts
        .ok (.choice c yes no, ts)
      | _ => .error (.expecting "':'")
    | ts => .ok (c, ts)

/-- Reads expressions of which one is to hold. -/
def readEither : (fuel : Nat) → List Token → Read
  | 0, _ => .error (.expecting "primary")
  | fuel + 1, ts => do
    let (a, ts) ← readBoth fuel ts
    match ts with
    | .sign "||" :: ts =>
      let (b, ts) ← readEither fuel ts
      .ok (.either a b, ts)
    | ts => .ok (a, ts)

/-- Reads expressions that are all to hold. -/
def readBoth : (fuel : Nat) → List Token → Read
  | 0, _ => .error (.expecting "primary")
  | fuel + 1, ts => do
    let (a, ts) ← readJoined fuel loosest ts
    match ts with
    | .sign "&&" :: ts =>
      let (b, ts) ← readBoth fuel ts
      .ok (.both a b, ts)
    | ts => .ok (a, ts)

/-- Reads operands and operators that bind at least so tightly. -/
def readJoined : (fuel : Nat) → (level : Nat) → List Token → Read
  | 0, _, _ => .error (.expecting "primary")
  | fuel + 1, level, ts => do
    let (a, ts) ← match level with
      | 0 => readPrimary fuel ts
      | level + 1 => readJoined fuel level ts
    readJoinedRest fuel level a ts

/-- Reads the operators of one level that follow an operand. -/
def readJoinedRest : (fuel : Nat) → (level : Nat) → Expression → List Token → Read
  | 0, _, _, _ => .error (.expecting "primary")
  | fuel + 1, level, a, ts =>
    match ts with
    | .sign s :: rest =>
      match (operator? s).filter (·.2 == level) with
      | some (o, _) => do
        let (b, rest) ← match level with
          | 0 => readPrimary fuel rest
          | level + 1 => readJoined fuel level rest
        readJoinedRest fuel level (.joined o a b) rest
      | none => .ok (a, ts)
    | ts => .ok (a, ts)

/-- Reads a number, a variable, a sign with its operand, or an expression in brackets. -/
def readPrimary : (fuel : Nat) → List Token → Read
  | 0, _ => .error (.expecting "primary")
  | fuel + 1, ts =>
    match ts with
    | .number n :: ts => .ok (.number n, ts)
    | .name x :: ts => .ok (.variable x, ts)
    | .sign "+" :: ts => readPrimary fuel ts
    | .sign "-" :: ts => (readPrimary fuel ts).map fun r => (.signed .negative r.1, r.2)
    | .sign "!" :: ts => (readPrimary fuel ts).map fun r => (.signed .negation r.1, r.2)
    | .sign "~" :: ts => (readPrimary fuel ts).map fun r => (.signed .complement r.1, r.2)
    | .sign "(" :: ts => do
      let (e, ts) ← readAssignment fuel ts
      match ts with
      | .sign ")" :: ts => .ok (e, ts)
      | _ => .error (.expecting "')'")
    | _ => .error (.expecting "primary")

end

/-- The expression that a text is. -/
def ofText (text : String) : Except Fault Expression := do
  let cs := text.toList
  let ts := tokens cs.length cs
  let (e, rest) ← readAssignment (20 * (ts.length + 1)) ts
  if rest.isEmpty then .ok e else .error (.expecting "EOF")

/-- The number that the value of a variable is written as. -/
def valueOf (text : String) : Except Fault Int :=
  let cs := text.toList.dropWhile isGap
  let (negative, cs) := match cs with
    | '-' :: cs => (true, cs)
    | '+' :: cs => (false, cs)
    | cs => (false, cs)
  let (n, rest) := readNumber cs
  if rest.all isGap then .ok (if negative then -n else n) else .error (.illegalNumber text)

/-- The value of an operator. -/
def Operator.apply (o : Operator) (a b : Int) : Except Fault Int :=
  let truth (c : Bool) : Except Fault Int := .ok (if c then 1 else 0)
  let bits (f : Int64 → Int64 → Int64) : Except Fault Int := .ok (f (Int64.ofInt a) (Int64.ofInt b)).toInt
  match o with
  | .times => .ok (wrap (a * b))
  | .over => if b = 0 then .error .divisionByZero else .ok (wrap (a.tdiv b))
  | .rest => if b = 0 then .error .divisionByZero else .ok (wrap (a.tmod b))
  | .plus => .ok (wrap (a + b))
  | .minus => .ok (wrap (a - b))
  | .left => .ok (wrap (a * Nat.pow 2 (b.emod 64).toNat))
  | .right => .ok (a.fdiv (Nat.pow 2 (b.emod 64).toNat))
  | .below => truth (a < b)
  | .atMost => truth (a ≤ b)
  | .above => truth (b < a)
  | .atLeast => truth (b ≤ a)
  | .equal => truth (a = b)
  | .unequal => truth (a ≠ b)
  | .bitAnd => bits (· &&& ·)
  | .bitXor => bits (· ^^^ ·)
  | .bitOr => bits (· ||| ·)

/-- The value of an expression, where `get` gives the values of variables before all that is assigned; the latest assignment
stands first. -/
def Expression.evaluate (get : String → String) :
    Expression → List (String × String) → Except Fault (Int × List (String × String))
  | .number n, set => .ok (n, set)
  | .variable x, set => do .ok (← valueOf ((set.lookup x).getD (get x)), set)
  | .signed sign e, set => do
    let (n, set) ← e.evaluate get set
    .ok (match sign with
      | .negative => wrap (-n)
      | .negation => if n = 0 then 1 else 0
      | .complement => -n - 1, set)
  | .joined o a b, set => do
    let (m, set) ← a.evaluate get set
    let (n, set) ← b.evaluate get set
    .ok (← o.apply m n, set)
  | .both a b, set => do
    let (m, set) ← a.evaluate get set
    if m = 0 then .ok (0, set)
    else
      let (n, set) ← b.evaluate get set
      .ok (if n = 0 then 0 else 1, set)
  | .either a b, set => do
    let (m, set) ← a.evaluate get set
    if m != 0 then .ok (1, set)
    else
      let (n, set) ← b.evaluate get set
      .ok (if n = 0 then 0 else 1, set)
  | .choice c yes no, set => do
    let (m, set) ← c.evaluate get set
    if m != 0 then yes.evaluate get set else no.evaluate get set
  | .assign x o e, set => do
    let (n, set) ← e.evaluate get set
    let value ← match o with
      | none => .ok n
      | some o => do o.apply (← valueOf ((set.lookup x).getD (get x))) n
    .ok (value, (x, toString value) :: set)

/-- The text of a fault in an expression. -/
def Fault.message (expression : String) : Fault → String
  | .expecting what => "arithmetic expression: expecting " ++ what ++ ": \"" ++ expression ++ "\""
  | .divisionByZero => "arithmetic expression: division by zero: \"" ++ expression ++ "\""
  | .illegalNumber text => "Illegal number: " ++ text

end JobShell.Machine.Script.Arithmetic
