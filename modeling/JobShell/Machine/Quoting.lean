/-!
# Names in messages

A name stands in a message so that a script could use it: between single quotes, where octets that cannot be printed are
escapes in quotes of their own, or between double quotes where it holds a single quote and nothing that those would change.
Some messages leave out quotes that a script would not need. What is no name of a file is cited between single quotes, with
escapes after backslashes.
-/

namespace JobShell.Machine

/-- The letter that an octet is written with after a backslash, if it has one. -/
def controlLetter? : Char → Option Char
  | '\x07' => some 'a'
  | '\x08' => some 'b'
  | '\t' => some 't'
  | '\n' => some 'n'
  | '\x0b' => some 'v'
  | '\x0c' => some 'f'
  | '\r' => some 'r'
  | _ => none

/-- An octet that shows as itself. -/
def isVisible (c : Char) : Bool := ' ' ≤ c && c ≤ '~'

/-- An octet that does not show, as an escape. -/
def escaped (c : Char) : List Char :=
  match controlLetter? c with
  | some letter => ['\\', letter]
  | none =>
    let digit (n : Nat) : Char := Char.ofNat ('0'.toNat + n % 8)
    ['\\', digit (c.toNat / 64), digit (c.toNat / 8), digit c.toNat]

/-- An octet that means nothing to a script wherever it stands. -/
def isInert (c : Char) : Bool := c.isAlphanum || "%+,-./:]_".toList.contains c

/-- A name that a script takes as it is. -/
def isBare : List Char → Bool
  | [] => false
  | [c] => isInert c || c == '@'
  | c :: cs => (isInert c || "@\x7b\x7d".toList.contains c) && cs.all fun c => isInert c || "@\x7b\x7d#~".toList.contains c

/-- A name between single quotes, after the first of them. `escaping` says that the last octet was an escape. -/
def quotedRest : (escaping : Bool) → List Char → List Char
  | _, [] => ['\'']
  | escaping, c :: cs =>
    if c == '\'' then "'\\''".toList ++ quotedRest false cs
    else if isVisible c then (if escaping then "''".toList else []) ++ c :: quotedRest false cs
    else (if escaping then [] else "'$'".toList) ++ escaped c ++ quotedRest true cs

/-- A name that may stand between double quotes. -/
def allowsDouble : List Char → Bool
  | [] => true
  | c :: cs => (isInert c || " '#~".toList.contains c) && cs.all fun c => isInert c || c == ' ' || c == '\''

/-- A name in quotes. -/
def quoted (name : String) : String :=
  let cs := name.toList
  if cs.contains '\'' && allowsDouble cs then "\"" ++ name ++ "\""
  else String.ofList ('\'' :: quotedRest false cs)

/-- A name in quotes where a script would need them. -/
def bare (name : String) : String := if isBare name.toList then name else quoted name

/-- A word that is cited. -/
def cited (word : String) : String :=
  "'" ++ String.ofList (word.toList.flatMap fun c =>
    if c == '\'' || c == '\\' then ['\\', c] else if isVisible c then [c] else escaped c) ++ "'"

end JobShell.Machine
