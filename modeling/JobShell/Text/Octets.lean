/-!
# Octets

A text that leaves the shell is a sequence of octets, its characters in UTF-8. Octets are kept as a string in which each
character stands for the octet of its number. Octets that are no UTF-8 can be read with a replacement for each part that is
none (`Octets.text`) or not at all (`Octets.text?`).
-/

namespace JobShell.Octets

/-- The octet of a number below 256, as a character. -/
def octet (n : Nat) : Char := Char.ofNat n

/-- The octets of a character. -/
def ofChar (c : Char) : List Char :=
  let n := c.toNat
  if n < 0x80 then [c]
  else if n < 0x800 then [octet (0xc0 + n / 0x40), octet (0x80 + n % 0x40)]
  else if n < 0x10000 then [octet (0xe0 + n / 0x1000), octet (0x80 + n / 0x40 % 0x40), octet (0x80 + n % 0x40)]
  else [octet (0xf0 + n / 0x40000), octet (0x80 + n / 0x1000 % 0x40), octet (0x80 + n / 0x40 % 0x40), octet (0x80 + n % 0x40)]

/-- Every character is its own octet. -/
def isPlain (s : String) : Bool := s.toList.all fun c => c.toNat < 0x80

/-- The octets of a text. -/
def ofText (s : String) : String :=
  if isPlain s then s else String.ofList (s.toList.flatMap ofChar)

/-- How many octets follow the first one of a character, and the bounds of the next octet. Nothing begins with any other
octet. -/
def lead? (n : Nat) : Option (Nat × Nat × Nat) :=
  if n < 0x80 then some (0, 0x80, 0xbf)
  else if n < 0xc2 then none
  else if n < 0xe0 then some (1, 0x80, 0xbf)
  else if n < 0xf0 then some (2, if n = 0xe0 then 0xa0 else 0x80, if n = 0xed then 0x9f else 0xbf)
  else if n < 0xf5 then some (3, if n = 0xf0 then 0x90 else 0x80, if n = 0xf4 then 0x8f else 0xbf)
  else none

/-- The characters of some octets, none in place of each part that is not UTF-8. A part ends before the first octet that does
not go on with it. `left` octets are missing of the character at work, whose bits so far are `bits`, and the next one lies from
`low` to `high`. -/
def decode (left bits low high : Nat) : List Char → List (Option Char)
  | [] => if left = 0 then [] else [none]
  | c :: cs =>
    let n := c.toNat
    if left = 0 then first n cs
    else if low ≤ n && n ≤ high then
      let bits := bits * 0x40 + (n - 0x80)
      if left = 1 then some (Char.ofNat bits) :: decode 0 0 0x80 0xbf cs else decode (left - 1) bits 0x80 0xbf cs
    else none :: first n cs
where
  /-- A character begins with the octet `n`. -/
  first (n : Nat) (cs : List Char) : List (Option Char) :=
    match lead? n with
    | none => none :: decode 0 0 0x80 0xbf cs
    | some (0, _, _) => some (Char.ofNat n) :: decode 0 0 0x80 0xbf cs
    | some (more, low, high) => decode more (n % Nat.pow 2 (6 - more)) low high cs

/-- The text that octets stand for, with U+FFFD for each part that is not UTF-8. -/
def text (octets : String) : String :=
  if isPlain octets then octets
  else String.ofList ((decode 0 0 0x80 0xbf octets.toList).map (·.getD '\ufffd'))

/-- The text that octets stand for, if they are UTF-8 throughout. -/
def text? (octets : String) : Option String :=
  if isPlain octets then some octets
  else ((decode 0 0 0x80 0xbf octets.toList).mapM id).map String.ofList

end JobShell.Octets
