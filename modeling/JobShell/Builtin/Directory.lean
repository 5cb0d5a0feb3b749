import JobShell.Builtin.Result
import JobShell.Session

/-!
# The working directory

`cd` enters a directory and keeps `PWD` and `OLDPWD` in step with it: after a `cd` that succeeds, `PWD` is the directory
entered, in the form in which the system names it, and `OLDPWD` the one left. A `cd` that fails changes nothing. `cd -` goes
to `OLDPWD` and prints where it came to.
-/

namespace JobShell

/-- Where `cd` is to go: its operand, the home directory, or the directory before. -/
def cdTarget (e : Environment) : List String → Except String String
  | [] => match e.get? "HOME" with
    | some home => .ok home
    | none => .error "cd: HOME not set"
  | "-" :: _ => match e.get? "OLDPWD" with
    | some previous => .ok previous
    | none => .error "cd: OLDPWD not set"
  | dir :: _ => .ok dir

/-- The environment after a change of directory; the directory left is not always known. -/
def Environment.moved (e : Environment) (previous : Except FileError String) (current : String) : Environment :=
  (match previous with
    | .ok dir => e.set "OLDPWD" dir
    | .error _ => e).set "PWD" current

namespace Act

variable {σ : Type}

/-- Changes the working directory. -/
def cd (S : System σ) (args : List String) : Act σ CommandResult := do
  match cdTarget (← get).environment args with
  | .error message => return .failure 1 message
  | .ok target =>
    let previous ← look S.workingDirectory
    match ← ask (S.changeDirectory target) with
    | .error e => return .failure 1 ("cd: " ++ target ++ ": " ++ e.message)
    | .ok () =>
      let current := (← look S.workingDirectory).toOption.getD target
      modify fun s => { s with environment := s.environment.moved previous current }
      return .success (if args.head? = some "-" then current ++ "\n" else "")

/-- Prints the working directory. -/
def pwd (S : System σ) : Act σ CommandResult := do
  match ← look S.workingDirectory with
  | .ok dir => return .success (dir ++ "\n")
  | .error e => return .failure 1 ("pwd: " ++ e.message)

end Act

end JobShell
