import JobShell.Builtin.Jobs

/-!
# Sending signals

`kill` sends one signal to each of its targets, from left to right. A target that begins with `%` is a job, and the signal
goes to its whole group; any other is the id of a process. A target that cannot be signalled is reported and the rest still
get their turn.
-/

namespace JobShell

/-- The signal that a word names: its number, or its name in any case with or without `SIG`. -/
def Signal.parse? (text : String) : Option Signal :=
  match Numeral.int32? text with
  | some n => if 0 < n then ofNumber? n.toNat else none
  | none =>
    let upper := String.ofList (text.toList.map Char.toUpper)
    ofName? (if upper.startsWith "SIG" then upper else "SIG" ++ upper)

/-- The signal to send and the targets, or the word that names no signal. -/
def killOptions (args : List String) : Except String (Signal × List String) :=
  let parse (name : String) (targets : List String) : Except String (Signal × List String) :=
    match Signal.parse? name with
    | some signal => .ok (signal, targets)
    | none => .error name
  match args with
  | [] => .ok (.term, [])
  | flag :: rest =>
    match flag.toList, rest with
    | ['-', 's'], name :: targets => parse name targets
    | '-' :: c :: cs, targets => parse (String.ofList (c :: cs)) targets
    | _, _ => .ok (.term, args)

/-- What a target of `kill` names. -/
inductive KillTarget where
  | job (id : JobId)
  | process (pid : Pid)
  | invalid (message : String)
  deriving DecidableEq, Repr

/-- What a word names as a target. -/
def KillTarget.parse (text : String) : KillTarget :=
  if text.startsWith "%" then
    match jobSpec? text with
    | some id => .job id
    | none => .invalid (text ++ ": invalid job specification")
  else
    match (Numeral.int32? text).filter (0 < ·) with
    | some pid => .process pid
    | none => .invalid (text ++ ": arguments must be process or job IDs")

namespace Act

variable {σ : Type}

/-- Sends a signal to one target; gives the message if that fails. -/
def killTarget (S : System σ) (signal : Signal) (target : String) : Act σ (Option String) := do
  match KillTarget.parse target with
  | .job id =>
    match ← killJob S id signal with
    | .ok () => return none
    | .error e => return some e.message
  | .process pid =>
    match ← ask (S.signalProcess pid signal) with
    | .ok () => return none
    | .error e => return some ("(" ++ toString pid ++ "): " ++ e.message)
  | .invalid message => return some message

/-- Sends a signal to each target in turn; gives the messages of the ones that fail. -/
def killTargets (S : System σ) (signal : Signal) : List String → Act σ (List String)
  | [] => pure []
  | target :: rest => do
    let failure ← killTarget S signal target
    return failure.toList ++ (← killTargets S signal rest)

/-- Sends signals to jobs and processes. -/
def kill (S : System σ) (args : List String) : Act σ CommandResult := do
  match killOptions args with
  | .error name => return .failure 1 ("kill: " ++ name ++ ": invalid signal specification")
  | .ok (_, []) => return .failure 1 "kill: usage: kill [-s SIG | -SIG] %job|pid..."
  | .ok (signal, targets) => return .ofErrors ((← killTargets S signal targets).map ("kill: " ++ ·))

end Act

end JobShell
