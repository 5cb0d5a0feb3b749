import JobShell.Machine.Script.Redirecting

/-!
# Tasks

A command that a script runs itself is a task: it is given the script as it stands, and is a program that ends with the script
going on. A fault of a special command ends the script; a fault of any other one only fails.
-/

namespace JobShell.Machine.Script

/-- The script goes on with a status. -/
def State.proceed (s : State) (status : Nat) : Program := .script (s.withStatus status)

/-- A command that a script runs itself: the script, the name and the arguments of the command, and whether a fault ends the
script. -/
structure Task where
  state : State
  name : String
  arguments : List String
  isFatal : Bool := false

namespace Task

/-- Says what is wrong, and goes on. -/
def warn (t : Task) (text : String) (next : Program) : Program :=
  .complain ({ t.state with within := some t.name }.message text) next

/-- Ends with a fault. -/
def fault (t : Task) (text : String) : Program := t.warn text (if t.isFatal then t.state.leave 2 else t.state.proceed 2)

/-- Ends well. -/
def done (t : Task) : Program := t.state.proceed 0

/-- Writes a text and ends with a status. -/
def print (t : Task) (text : String) (status : Nat) : Program :=
  .put text fun
    | .ok () => t.state.proceed status
    | .error _ => t.warn (t.name ++ ": I/O error") (t.state.proceed 1)

/-- Cuts options off the arguments and goes on with their letters and values, and with the operands. A letter of `allowed` that a
colon follows has a value. -/
def options (t : Task) (allowed : String) (next : List (Char × String) → List String → Program) : Program :=
  match go (t.arguments.foldl (fun n a => n + a.length) 0) t.arguments [] with
  | .ok (found, operands) => next found operands
  | .error text => t.fault text
where
  /-- Takes the options of one argument after the other, of which `letters` are left. -/
  go : (fuel : Nat) → List String → (letters : List Char) → Except String (List (Char × String) × List String)
    | 0, args, _ => .ok ([], args)
    | fuel + 1, args, c :: cs =>
      match (allowed.toList.dropWhile (· != c)) with
      | [] => .error ("Illegal option -" ++ String.singleton c)
      | _ :: ':' :: _ =>
        if !cs.isEmpty then do
          let (found, operands) ← go fuel args []
          .ok ((c, String.ofList cs) :: found, operands)
        else match args with
          | [] => .error ("No arg for -" ++ String.singleton c ++ " option")
          | value :: args => do
            let (found, operands) ← go fuel args []
            .ok ((c, value) :: found, operands)
      | _ => do
        let (found, operands) ← go fuel args cs
        .ok ((c, "") :: found, operands)
    | fuel + 1, args, [] =>
      match args with
      | [] => .ok ([], [])
      | arg :: rest =>
        match arg.toList with
        | ['-', '-'] => .ok ([], rest)
        | '-' :: c :: cs => go (fuel + 1) rest (c :: cs)
        | _ => .ok ([], args)
  termination_by fuel args letters => (fuel, args.length, letters.length)

end Task

/-- The natural number that a word is, with blanks around it. -/
def naturalOf? (word : String) : Option Nat :=
  let isGap (c : Char) : Bool := c == ' ' || ('\t' ≤ c && c ≤ '\r')
  let cs := ((word.toList.dropWhile isGap).reverse.dropWhile isGap).reverse
  Numeral.natural? (Nat.pow 2 31 - 1) (String.ofList cs)

/-- A text in single quotes; single quotes in it stand in double quotes. At most `fuel` pieces are written. -/
def singleQuotedFrom : (fuel : Nat) → List Char → List Char
  | 0, _ => []
  | fuel + 1, cs =>
    let part := cs.takeWhile (· != '\'')
    let rest := cs.drop part.length
    let quotes := rest.takeWhile (· == '\'')
    let after := rest.drop quotes.length
    '\'' :: part ++ ['\''] ++ (if quotes.isEmpty then [] else '"' :: quotes ++ ['"']) ++
      if after.isEmpty then [] else singleQuotedFrom fuel after

/-- A text in single quotes; single quotes in it stand in double quotes. -/
def singleQuoted (s : String) : String := String.ofList (singleQuotedFrom (s.length + 1) s.toList)

end JobShell.Machine.Script
