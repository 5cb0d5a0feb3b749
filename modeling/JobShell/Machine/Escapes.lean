/-!
# Escapes

An escape stands for one octet: a letter after a backslash, an octal number of at most three digits, or a hexadecimal one of at
most two. Which of them count is a matter of where they stand; a backslash that begins no escape stands for itself.
-/

namespace JobShell.Machine

/-- Which escapes count: whether an octal number may have a zero before its digits, whether hexadecimal numbers count, whether a
quote may be escaped, and whether `\c` ends the text. -/
structure EscapeRules where
  zero : Bool := false
  hexadecimal : Bool := false
  quote : Bool := false
  ends : Bool := false
  deriving DecidableEq

/-- The value of an octal digit. -/
def octal? (c : Char) : Option Nat := if '0' ≤ c && c ≤ '7' then some (c.toNat - '0'.toNat) else none

/-- The value of a hexadecimal digit. -/
def hexadecimal? (c : Char) : Option Nat :=
  if c.isDigit then some (c.toNat - '0'.toNat)
  else if 'a' ≤ c && c ≤ 'f' then some (c.toNat - 'a'.toNat + 10)
  else if 'A' ≤ c && c ≤ 'F' then some (c.toNat - 'A'.toNat + 10)
  else none

/-- The value of the digits at the front, at most so many of them, and the rest. -/
def readDigits (value? : Char → Option Nat) (base : Nat) : (most : Nat) → (value : Nat) → List Char → Nat × List Char
  | 0, n, cs => (n, cs)
  | _, n, [] => (n, [])
  | most + 1, n, c :: cs =>
    match value? c with
    | some d => readDigits value? base most (base * n + d) cs
    | none => (n, c :: cs)

/-- The octet that a letter after a backslash stands for. -/
def escapeLetter? : Char → Option Char
  | 'a' => some '\x07'
  | 'b' => some '\x08'
  | 'e' => some '\x1b'
  | 'f' => some '\x0c'
  | 'n' => some '\n'
  | 'r' => some '\r'
  | 't' => some '\t'
  | 'v' => some '\x0b'
  | '\\' => some '\\'
  | _ => none

/-- What an escape comes to: an octet with the rest of the text, the end of all text, or nothing. -/
inductive Escape where
  | octet (c : Char) (rest : List Char)
  | ended
  | plain

/-- The escape at the front, after its backslash. -/
def readEscape (rules : EscapeRules) : List Char → Escape
  | [] => .plain
  | c :: cs =>
    if c == 'c' && rules.ends then .ended
    else if (octal? c).isSome then
      let digits := match cs with
        | d :: _ => if rules.zero && c == '0' && (octal? d).isSome then cs else c :: cs
        | [] => [c]
      let (n, rest) := readDigits octal? 8 3 0 digits
      .octet (Char.ofNat (n % 256)) rest
    else if c == 'x' && rules.hexadecimal && (cs.head?.bind hexadecimal?).isSome then
      let (n, rest) := readDigits hexadecimal? 16 2 0 cs
      .octet (Char.ofNat n) rest
    else match escapeLetter? c with
      | some e => .octet e cs
      | none => if c == '"' && rules.quote then .octet c cs else .plain

/-- A text with its escapes replaced, and whether one of them ended it. At most `fuel` octets are read. -/
def unescapeWith (rules : EscapeRules) : (fuel : Nat) → List Char → List Char × Bool
  | 0, cs => (cs, false)
  | _, [] => ([], false)
  | fuel + 1, '\\' :: cs =>
    match readEscape rules cs with
    | .octet c rest =>
      let (more, ended) := unescapeWith rules fuel rest
      (c :: more, ended)
    | .ended => ([], true)
    | .plain =>
      let (more, ended) := unescapeWith rules fuel cs
      ('\\' :: more, ended)
  | fuel + 1, c :: cs =>
    let (more, ended) := unescapeWith rules fuel cs
    (c :: more, ended)

/-- A text with its escapes replaced, and whether one of them ended it. -/
def unescape (rules : EscapeRules) (text : String) : List Char × Bool := unescapeWith rules text.length text.toList

/-- The escapes of a script's own texts. -/
def EscapeRules.script : EscapeRules := { zero := true, ends := true }

/-- The escapes of a tool's texts. -/
def EscapeRules.tool : EscapeRules := { zero := true, hexadecimal := true, ends := true }

end JobShell.Machine
