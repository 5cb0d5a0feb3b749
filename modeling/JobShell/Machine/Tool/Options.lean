import JobShell.Machine.Program
import JobShell.Text.Lines
import JobShell.Text.Numeral

/-!
# Options of tools

A tool's words are options and operands. An option is a letter after a dash, and several may share one dash; or a longer name
after two dashes, which may be cut short as long as it names one option only. Its value stands with it or is the next word. Two
dashes alone end the options. Most tools take options after operands as well; others stop at the first operand.
-/

namespace JobShell.Machine.Tool

/-- Whether an option has a value. -/
inductive Arity where
  | flag | needed | optional
  deriving DecidableEq

/-- The options of a tool: letters, a colon after the ones with a value, and longer names with the letters they stand for. -/
structure OptionTable where
  letters : String := ""
  names : List (String × Char × Arity) := []
  stops : Bool := false

/-- The options that were given, with their values, and the operands. -/
structure Options where
  given : List (Char × String) := []
  operands : List String := []

namespace Options

/-- An option was given. -/
def has (o : Options) (c : Char) : Bool := o.given.any (·.1 == c)

/-- The last value of an option. -/
def value? (o : Options) (c : Char) : Option String := (o.given.filter (·.1 == c)).getLast?.map (·.2)

/-- The last of some options that was given. -/
def lastOf? (o : Options) (cs : List Char) : Option Char := (o.given.filter fun g => cs.contains g.1).getLast?.map (·.1)

end Options

namespace OptionTable

/-- Whether the option of a letter has a value, if there is such an option. -/
def arity? (t : OptionTable) (c : Char) : Option Arity :=
  if c == ':' then none
  else match t.letters.toList.dropWhile (· != c) with
    | [] => none
    | _ :: ':' :: ':' :: _ => some .optional
    | _ :: ':' :: _ => some .needed
    | _ => some .flag

/-- The option of a name that may be cut short, or what is wrong with it. -/
def named (t : OptionTable) (word : String) : Except String (String × Char × Arity) :=
  match t.names.find? (·.1 == word) with
  | some n => .ok n
  | none =>
    match t.names.filter fun n => n.1.startsWith word with
    | [] => .error ("unrecognized option '--" ++ word ++ "'")
    | [n] => .ok n
    | n :: rest =>
      if rest.all fun m => m.2.1 == n.2.1 then .ok n
      else .error ("option '--" ++ word ++ "' is ambiguous; possibilities:" ++
        String.join ((n :: rest).map fun m => " '--" ++ m.1 ++ "'"))

/-- The options and operands that some words are, or what is wrong with them. `letters` are left of the word before them. -/
def read (t : OptionTable) : (words : List String) → (letters : List Char) → Except String Options
  | words, c :: cs =>
    let single := String.singleton c
    match t.arity? c with
    | none => .error ("invalid option -- '" ++ single ++ "'")
    | some .flag => do
      let o ← read t words cs
      .ok { o with given := (c, "") :: o.given }
    | some .optional => do
      let o ← read t words []
      .ok { o with given := (c, String.ofList cs) :: o.given }
    | some .needed =>
      if !cs.isEmpty then do
        let o ← read t words []
        .ok { o with given := (c, String.ofList cs) :: o.given }
      else match words with
        | [] => .error ("option requires an argument -- '" ++ single ++ "'")
        | value :: words => do
          let o ← read t words []
          .ok { o with given := (c, value) :: o.given }
  | [], [] => .ok {}
  | word :: words, [] =>
    match word.toList with
    | ['-', '-'] => .ok { operands := words }
    | '-' :: '-' :: _ => do
      let name := (word.splitOn "=").headD ""
      let value : Option String :=
        if name.length < word.length then some (String.ofList (word.toList.drop (name.length + 1))) else none
      let (full, c, arity) ← t.named (String.ofList (name.toList.drop 2))
      match arity, value, words with
      | .flag, some _, _ => .error ("option '--" ++ full ++ "' doesn't allow an argument")
      | .needed, none, [] => .error ("option '--" ++ full ++ "' requires an argument")
      | .needed, none, value :: words =>
        let o ← read t words []
        .ok { o with given := (c, value) :: o.given }
      | _, value, words =>
        let o ← read t words []
        .ok { o with given := (c, value.getD "") :: o.given }
    | '-' :: c :: cs => read t words (c :: cs)
    | _ =>
      if t.stops then .ok { operands := word :: words }
      else do
        let o ← read t words []
        .ok { o with operands := word :: o.operands }
termination_by words letters => (words.length, letters.length)

end OptionTable

/-- The letter that stands for a wish for help, and the one for the version. -/
def helpLetter : Char := '\x01'
def versionLetter : Char := '\x02'

/-- The advice to look at a tool's help. -/
def advice (call : Call) : String := "Try '" ++ call.name ++ " --help' for more information.\n"

/-- A message of a tool. -/
def message (call : Call) (text : String) : String := call.name ++ ": " ++ text ++ "\n"

/-- A tool that is used in a wrong way says so and fails. -/
def misuse (call : Call) (text : String) (status : Nat) : Program := .fail (message call text ++ advice call) status

/-- A tool that cannot do its work says so and fails. -/
def refuse (call : Call) (text : String) (status : Nat) : Program := .fail (message call text) status

/-- Reads a tool's options and goes on with them. -/
def withOptions (call : Call) (table : OptionTable) (status : Nat) (next : Options → Program) : Program :=
  let table := { table with
    names := table.names ++ [("help", helpLetter, Arity.flag), ("version", versionLetter, Arity.flag)] }
  match table.read call.arguments [] with
  | .error text => misuse call text status
  | .ok o =>
    if o.has helpLetter then .answer call.name ("Usage: " ++ call.name ++ " [OPTION]...\n")
    else if o.has versionLetter then .answer call.name (call.name ++ "\n")
    else next o

/-- A number of things, with a letter after it that multiplies it. -/
def sizeOf? (word : String) : Option Nat :=
  let ds := word.toList.takeWhile Char.isDigit
  let rest := word.toList.drop ds.length
  let value (n power : Nat) (base : Nat) : Nat := n * Nat.pow base power
  let power? (c : Char) : Option Nat := "KMGTPEZY".toList.idxOf? c.toUpper |>.map (· + 1)
  let n? := if ds.isEmpty then (if rest.isEmpty then none else some 1) else Numeral.digits? ds
  n?.bind fun n => match rest with
    | [] => some n
    | ['b'] => some (n * 512)
    | [c] => (power? c).map fun p => value n p 1024
    | [c, 'B'] => (power? c).map fun p => value n p 1000
    | [c, 'i', 'B'] => (power? c).map fun p => value n p 1024
    | _ => none

end JobShell.Machine.Tool
