import JobShell.Builtin.Result
import JobShell.Launch

/-!
# Variables of the environment

`export` sets variables and `unset` removes them. Each argument stands alone: a bad one is reported and the others still take
effect. A name is never empty and holds neither `=` nor NUL, and a value holds no NUL.
-/

namespace JobShell

/-- The name and the value of an assignment, which are parted by its first `=`. -/
def assignment? (text : String) : Option (String × String) :=
  let cs := text.toList
  let name := String.ofList (cs.takeWhile (· != '='))
  match cs.dropWhile (· != '=') with
  | [] => none
  | _ :: rest =>
    let value := String.ofList rest
    if name.isEmpty || containsNul name || containsNul value then none else some (name, value)

/-- The text can be the name of a variable to remove. -/
def isRemovableName (name : String) : Bool :=
  !name.isEmpty && !name.toList.contains '=' && !containsNul name

/-- The environment after the assignments among these arguments. -/
def Environment.assignAll (e : Environment) (args : List String) : Environment :=
  (args.filterMap assignment?).foldl (fun e v => e.set v.1 v.2) e

/-- The environment without the variables named by these arguments. -/
def Environment.removeAll (e : Environment) (args : List String) : Environment :=
  (args.filter isRemovableName).foldl (·.remove) e

namespace Act

variable {σ : Type}

/-- Lists the environment. -/
def env : Act σ CommandResult := do
  return .success (← get).environment.text

/-- Sets variables. -/
def exportAll (args : List String) : Act σ CommandResult := do
  if args.isEmpty then return .failure 1 "export: usage: export NAME=value..."
  modify fun s => { s with environment := s.environment.assignAll args }
  return .ofErrors ((args.filter fun a => (assignment? a).isNone).map fun a => "export: " ++ a ++ ": invalid assignment")

/-- Removes variables. -/
def unsetAll (args : List String) : Act σ CommandResult := do
  if args.isEmpty then return .failure 1 "unset: missing variable name"
  modify fun s => { s with environment := s.environment.removeAll args }
  return .ofErrors ((args.filter fun a => !isRemovableName a).map fun a => "unset: " ++ a ++ ": invalid variable name")

end Act

end JobShell
