import JobShell.Machine.ChildEnd
import JobShell.Machine.Script.Reading

/-!
# The state of a script

What a script still has to do is a stack of frames, the next one first. Together with the variables, the functions, the
arguments and the traps that is all there is to a script between two of its commands.
-/

namespace JobShell.Machine.Script

/-- A variable; one without a value is only marked. -/
structure Binding where
  name : String
  value : Option String
  exported : Bool := false
  constant : Bool := false
  deriving DecidableEq, Repr

/-- A function: its name, the line it stands on, and what it does. -/
structure Function where
  name : String
  line : Nat
  body : Command

/-- What is to be done after what stands before it. A command that is `tested` may fail without ending a script that ends on
failure. -/
inductive Frame where
  | run (c : Command) (tested : Bool)
  | both (c : Command) (tested : Bool)
  | either (c : Command) (tested : Bool)
  | invert
  | choose (yes no : Command) (tested : Bool)
  | check (until_ : Bool) (condition body : Command) (last : Nat) (tested : Bool)
  | again (until_ : Bool) (condition body : Command) (tested : Bool)
  | iterate (name : String) (values : List String) (body : Command) (tested : Bool)
  | restore (saved : List (Descriptor × Descriptor))
  | rebind (saved : List (String × Option Binding))
  | collect (pids : List Pid)
  | judge
  | await (jobs : List Nat) (reports : Bool)
  | read (source : Source) (input : Option Descriptor) (tested : Bool)
  | resume (status : Nat)
  | leaveFunction (arguments : List String) (index place : Nat)
  | leaveText (name : Option String) (isFile : Bool)

/-- A frame of a loop. -/
def Frame.isLoop : Frame → Bool
  | .again .. | .iterate .. | .check .. => true
  | _ => false

/-- A frame that puts something back, and is not to be passed over. -/
def Frame.cleans : Frame → Bool
  | .restore _ | .rebind _ | .leaveText .. | .leaveFunction .. => true
  | _ => false

/-- The frame at the end of a function. -/
def Frame.endsFunction : Frame → Bool
  | .leaveFunction .. => true
  | _ => false

/-- A job in the background: its number, its processes, and the ends of the ones that were waited for. -/
structure BackgroundJob where
  number : Nat
  pids : List Pid
  ends : List (Pid × ChildEnd) := []
  waited : Bool := false

/-- A script on its way. `traps` gives the action of a signal; the number 0 stands for the end of the script. The signals in
`spared` were ignored from the start and stay so. A script is `reusable` when its process may become its last command. `at_` is
the line of the command at work, and `within` the command on whose behalf a text is run. `locals` holds what the variables were
before the functions at work made them their own, `found` where commands were found, and `index` and `place` how far the
options of the arguments have been read. -/
structure State where
  name : String
  arguments : List String := []
  bindings : List Binding := []
  functions : List Function := []
  aliases : List (String × String) := []
  documents : List (Nat × Word) := []
  options : List Char := []
  status : Nat := 0
  outputStatus : Option Nat := none
  traps : List (Nat × String) := []
  spared : List Nat := []
  self : Pid := 0
  parent : Pid := 0
  background : Option Pid := none
  jobs : List BackgroundJob := []
  directory : String := ""
  found : List (String × String) := []
  index : Nat := 1
  place : Nat := 0
  at_ : Nat := 0
  within : Option String := none
  locals : List (List (String × Option Binding)) := []
  frames : List Frame := []
  reusable : Bool := false

namespace State

/-- The variable of a name. -/
def binding? (s : State) (name : String) : Option Binding := s.bindings.find? (·.name == name)

/-- The value of a variable. -/
def get? (s : State) (name : String) : Option String := (s.binding? name).bind (·.value)

/-- The script with a variable put in the place of the one of that name, or added. -/
def bind (s : State) (b : Binding) : State :=
  { s with bindings :=
      if s.bindings.any (·.name == b.name) then s.bindings.map fun v => if v.name == b.name then b else v
      else s.bindings ++ [b] }

/-- The script with an option set or not. -/
def withOption (s : State) (letter : Char) (on : Bool) : State :=
  { s with options := if on then if s.options.contains letter then s.options else letter :: s.options
      else s.options.filter (· != letter) }

/-- An option is set. -/
def has (s : State) (letter : Char) : Bool := s.options.contains letter

/-- The script with a variable set. -/
def assign (s : State) (name value : String) : State :=
  let b := (s.binding? name).getD { name, value := none }
  let s := s.bind { b with value := some value, exported := b.exported || s.has 'a' }
  if name == "OPTIND" then { s with index := max 1 ((Numeral.natural? (Nat.pow 2 31 - 1) value).getD 1), place := 0 }
  else if name == "PATH" then { s with found := [] }
  else s

/-- The script without a variable. -/
def remove (s : State) (name : String) : State := { s with bindings := s.bindings.filter (·.name != name) }

/-- A variable must not be changed. -/
def isConstant (s : State) (name : String) : Bool := (s.binding? name).any (·.constant)

/-- The weight of a name, which says where it is listed. -/
def weight (name : String) : Nat :=
  match name.toList with
  | [] => 0
  | c :: cs => cs.foldl (fun n d => n + d.toNat) (c.toNat * 17) % 39

/-- The environment for the programs that the script starts. Variables are listed by the weights of their names. -/
def environment (s : State) : Environment :=
  let exported := s.bindings.filter fun b => b.exported && b.value.isSome
  (List.range 39).flatMap fun n =>
    (exported.filter fun b => weight b.name == n).map fun b => (b.name, b.value.getD "")

/-- The script with a status. -/
def withStatus (s : State) (n : Nat) : State := { s with status := n }

/-- The script with more to do first. -/
def push (s : State) (f : Frame) : State := { s with frames := f :: s.frames }

/-- The frame that reads a text. -/
def reading (s : State) (text : String) (tested : Bool) : Frame :=
  .read { rest := text.toList, aliases := s.aliases, nextDocument := s.documents.length } none tested

/-- The innermost `n` loops are left, or the last of them begun again. -/
def leaveLoops (continues : Bool) : (n : Nat) → List Frame → List Frame
  | 0, fs => fs
  | _, [] => []
  | n + 1, f :: rest =>
    if f.isLoop then
      match n with
      | 0 =>
        if continues then
          match f with
          | .check until_ condition body _ tested => .again until_ condition body tested :: rest
          | f => f :: rest
        else rest
      | n => leaveLoops continues n rest
    else if f.cleans then f :: leaveLoops continues (n + 1) rest
    else leaveLoops continues (n + 1) rest

/-- The script after `n` of its loops, as far as there are so many around it in the function at work, were left or begun
again. -/
def afterLoops (s : State) (continues : Bool) (n : Nat) : State :=
  let around := ((s.frames.takeWhile fun f => !f.endsFunction).filter Frame.isLoop).length
  { s with frames := leaveLoops continues (min n around) s.frames, status := 0 }

/-- The frames after the function or the file at work; without one, the script ends. -/
def returnFrames : List Frame → List Frame
  | [] => []
  | f :: rest =>
    match f with
    | .leaveFunction .. | .leaveText _ true => f :: rest
    | f => if f.cleans then f :: returnFrames rest else returnFrames rest

end State

end JobShell.Machine.Script
