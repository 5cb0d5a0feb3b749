import JobShell.Builtin.Result
import JobShell.JobControl
import JobShell.Text.Numeral

/-!
# Commands on jobs

`jobs` lists the tracked jobs; `fg` and `bg` continue one. A job is named by its number, with or without a `%` before it;
without a name the job registered last is meant.
-/

namespace JobShell

/-- The job that a specification names. -/
def jobSpec? (text : String) : Option JobId :=
  (Numeral.word? (match text.toList with
    | '%' :: rest => String.ofList rest
    | _ => text)).filter (0 < ·)

namespace Act

variable {σ : Type}

/-- The job named by the first argument of a command, or the current one; else what the command answers. -/
def targetJob (command : String) : List String → Act σ (Except CommandResult JobId)
  | spec :: _ => match jobSpec? spec with
    | some id => pure (.ok id)
    | none => pure (.error (.failure 1 (command ++ ": " ++ spec ++ ": invalid job specification")))
  | [] => do
    match (← get).table.current? with
    | some id => return .ok id
    | none => return .error (.failure 1 (command ++ ": no current job"))

/-- Lists the jobs. -/
def jobs : Act σ CommandResult := do
  return .success (String.join ((← get).table.list.map fun j => j.text ++ "\n"))

/-- Continues a job in the background. -/
def bg (S : System σ) (args : List String) : Act σ CommandResult := do
  match ← targetJob "bg" args with
  | .error result => return result
  | .ok id =>
    match ← sendToBackground S id with
    | .ok () => return .success ""
    | .error e => return .failure 1 ("bg: " ++ e.message)

/-- Continues a job in the foreground; its status is the status of the command. -/
def fg (S : System σ) (args : List String) : Act σ CommandResult := do
  match ← targetJob "fg" args with
  | .error result => return result
  | .ok id =>
    match ← bringToForeground S id with
    | .ok outcome => return .ofCode outcome.code
    | .error e => return .failure 1 ("fg: " ++ e.message)

end Act

end JobShell
