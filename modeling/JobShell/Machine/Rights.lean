import JobShell.Machine.Escapes

/-!
# Rights

What the owner, the group and all others may do with a file are three octal digits, in which four stands for reading, two for
writing and one for running. They are given as such a number, or as changes of them in letters.
-/

namespace JobShell.Machine

/-- The rights of one class in letters. -/
def rightsText (rights : Nat) : String :=
  (if rights / 4 % 2 = 1 then "r" else "") ++ (if rights / 2 % 2 = 1 then "w" else "") ++ (if rights % 2 = 1 then "x" else "")

/-- Rights after changes such as `+w-x` in some places. The rights in `kept` stay as they are; `X` stands for running where it
makes sense. At most `fuel` changes are read. -/
def changeIn (places kept : Nat) (runs : Bool) : (fuel : Nat) → List Char → (rights : Nat) → Option Nat
  | 0, _, _ => none
  | _, [], rights => some rights
  | fuel + 1, operator :: cs, rights =>
    let letters := cs.takeWhile "rwxX".toList.contains
    let bits := (if letters.contains 'r' then 4 else 0) + (if letters.contains 'w' then 2 else 0) +
      if letters.contains 'x' || (letters.contains 'X' && runs) then 1 else 0
    let change := bits * places &&& (0o777 ^^^ kept)
    let next? : Option Nat := match operator with
      | '+' => some (rights ||| change)
      | '-' => some (rights &&& (0o777 ^^^ change))
      | '=' => some ((rights &&& (0o777 ^^^ (7 * places))) ||| change)
      | _ => none
    next?.bind (changeIn places kept runs fuel (cs.drop letters.length))

/-- Rights after one change such as `g-w`. Where no class is named, all are meant but for the rights in `mask`. -/
def changeRights (mask : Nat) (runs : Bool) (clause : List Char) (rights : Nat) : Option Nat :=
  let classes := clause.takeWhile "ugoa".toList.contains
  let changes := clause.drop classes.length
  let isFor (c : Char) : Bool := classes.isEmpty || classes.contains c || classes.contains 'a'
  let places := (if isFor 'u' then 64 else 0) + (if isFor 'g' then 8 else 0) + if isFor 'o' then 1 else 0
  if changes.isEmpty then none else changeIn places (if classes.isEmpty then mask else 0) runs changes.length changes rights

/-- Rights after changes with commas between them. -/
def changeAll (mask : Nat) (runs : Bool) (word : String) (rights : Nat) : Option Nat :=
  (word.splitOn ",").foldlM (fun rights clause => changeRights mask runs clause.toList rights) rights

/-- The number that octal digits are, if all of them are and there is one. -/
def octalNumber? (word : String) : Option Nat :=
  if !word.isEmpty && word.toList.all fun c => (octal? c).isSome then some (readDigits octal? 8 word.length 0 word.toList).1
  else none

/-- The rights that a word gives to something that has some, if the word is one that gives rights. -/
def newRights? (mask : Nat) (isDirectory : Bool) (word : String) (rights : Nat) : Option Nat :=
  match octalNumber? word with
  | some n => if n < 0o10000 then some (n % 0o1000) else none
  | none => changeAll mask (isDirectory || rights &&& 0o111 != 0) word rights

end JobShell.Machine
