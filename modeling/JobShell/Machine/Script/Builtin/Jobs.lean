import JobShell.Machine.Script.Builtin.Basic
import JobShell.Machine.Script.SignalName

/-!
# Tasks on jobs and signals

The commands that send signals, say what is to be done when signals come, and wait for commands in the background. A script
without control over jobs cannot move them between background and foreground.
-/

namespace JobShell.Machine.Script

namespace State

/-- The job in the lowest place that is free; the place of one that was waited for may be taken. -/
def takeSlot (s : State) : Nat × State :=
  let n := ((List.range (s.jobs.length + 1)).map (· + 1)).find? fun n => !s.jobs.any fun j => j.number == n && !j.waited
  let n := n.getD 1
  (n, { s with jobs := s.jobs.filter (·.number != n) })

/-- The script with a job in the background. -/
def addJob (s : State) (pids : List Pid) : State :=
  let (n, s) := s.takeSlot
  { s with jobs := { number := n, pids } :: s.jobs, background := pids.getLast? }

/-- The script with a job changed. -/
def changeJob (s : State) (number : Nat) (change : BackgroundJob → BackgroundJob) : State :=
  { s with jobs := s.jobs.map fun j => if j.number == number then change j else j }

/-- The job that a word after a percent sign names, or what is said of it if there is none. -/
def job? (s : State) (word : String) : Except String BackgroundJob :=
  let missing : Except String BackgroundJob := .error ("No such job: " ++ word)
  match word.toList.drop 1 with
  | [] | ['%'] | ['+'] => match s.jobs with
    | j :: _ => .ok j
    | [] => .error "No current job"
  | ['-'] => match s.jobs with
    | _ :: j :: _ => .ok j
    | _ => .error "No previous job"
  | cs => match (Numeral.digits? cs).bind fun n => s.jobs.find? (·.number == n) with
    | some j => .ok j
    | none => missing

end State

/-- The job has ended. -/
def BackgroundJob.isDone (j : BackgroundJob) : Bool := j.ends.length == j.pids.length

/-- The end of the job's last process. -/
def BackgroundJob.end? (j : BackgroundJob) : Option ChildEnd := j.pids.getLast?.bind fun pid => j.ends.lookup pid

namespace Task

/-- Takes note of the jobs' processes that have ended. -/
def pollJobs (s : State) (next : State → Program) : Program :=
  go (s.jobs.flatMap fun j => (j.pids.filter fun p => (j.ends.lookup p).isNone).map fun p => (j.number, p)) s
where
  /-- Asks for one process after the other. -/
  go : List (Nat × Pid) → State → Program
    | [], s => next s
    | (number, pid) :: rest, s =>
      .awaitChild { pid := some pid, blocks := false } fun
        | .ended _ e => go rest (s.changeJob number fun j => { j with ends := (pid, e) :: j.ends })
        | _ => go rest s

/-- The line that lists a job, the marks of which tell its place among all. -/
def jobLine (s : State) (j : BackgroundJob) (ids : Bool) : String :=
  let mark := if s.jobs.head?.any (·.number == j.number) then "+"
    else if (s.jobs[1]?).any (·.number == j.number) then "-" else " "
  let front := "[" ++ toString j.number ++ "] " ++ mark ++ " " ++
    (if ids then toString (j.pids.headD 0) ++ " " else "") ++ (if j.isDone then (j.end?.map ChildEnd.text).getD "" else "Running")
  let line := front ++ "".pushn ' ' (max 1 (33 - front.length))
  line ++ String.join (j.pids.tail.map fun _ => " | ") ++ "\n"

/-- Lists jobs. One that has ended is forgotten as soon as it is listed, so that the marks of the next one tell its new place. -/
def jobs (t : Task) : Program :=
  t.options "lp" fun found words =>
    pollJobs t.state fun s =>
      match if words.isEmpty then .ok s.jobs else words.mapM s.job? with
      | .error text => t.fault text
      | .ok chosen =>
        let shown (s : State) (j : BackgroundJob) : String :=
          if found.getLast?.map (·.1) == some 'p' then toString (j.pids.headD 0) ++ "\n"
          else jobLine s j (found.any (·.1 == 'l'))
        let (s, text) := chosen.foldl (fun ((s, text) : State × String) j =>
          (if j.isDone then { s with jobs := s.jobs.filter (·.number != j.number) } else s, text ++ shown s j)) (s, "")
        { t with state := s }.print text 0

/-- Refuses to move a job between background and foreground. -/
def moveJob (t : Task) : Program :=
  match t.state.job? (t.arguments.headD "%") with
  | .error text => t.fault text
  | .ok _ => t.fault ("job " ++ (match t.arguments with
    | word :: _ => word
    | [] => "(null)") ++ " not created under job control")

/-- Waits for jobs, or for all of them. -/
def wait (t : Task) : Program :=
  t.options "" fun _ words =>
    if words.isEmpty then .script ((t.state.withStatus 0).push (.await (t.state.jobs.map (·.number)) false))
    else go words []
where
  /-- Finds one job after the other. -/
  go : List String → List Nat → Program
    | [], numbers => .script ((t.state.withStatus 127).push (.await numbers.reverse true))
    | word :: rest, numbers =>
      if word.startsWith "%" then
        match t.state.job? word with
        | .ok j => go rest (j.number :: numbers)
        | .error text => t.fault text
      else match naturalOf? word with
        | none => t.fault ("Illegal number: " ++ word)
        | some n => match t.state.jobs.find? fun j => j.pids.getLast? == some (Int.ofNat n) with
          | some j => go rest (j.number :: numbers)
          | none => go rest numbers

/-! ## Signals -/

/-- Sends a signal to several processes or groups in turn; the status tells whether one of them failed. -/
def signalAll (t : Task) (n : Nat) : List String → (status : Nat) → Program
  | [], status => t.state.proceed status
  | word :: rest, status =>
    let send (pid : Int) : Program :=
      .signal pid n fun
        | .ok () => signalAll t n rest status
        | .error e =>
          t.warn ((if e = .noProcess then "No such process" else if e = .invalid then "Invalid argument"
            else "Operation not permitted") ++ "\n") (signalAll t n rest 1)
    if word.startsWith "%" then
      match t.state.job? word with
      | .ok j => send (-(j.pids.headD 0))
      | .error text => t.fault text
    else match word.toList with
      | '-' :: cs => match naturalOf? (String.ofList cs) with
        | some pid => send (-Int.ofNat pid)
        | none => t.fault ("Illegal number: " ++ String.ofList cs)
      | _ => match naturalOf? word with
        | some pid => send (Int.ofNat pid)
        | none => t.fault ("Illegal number: " ++ word)

/-- What is said of a call of `kill` that makes no sense. -/
def killUsage : String := "Usage: kill [-s sigspec | -signum | -sigspec] [pid | job]... or\nkill -l [exitstatus]"

/-- Lists the names of signals, or the one of a status. -/
def listSignals (t : Task) : List String → Program
  | [] => t.print (String.join ("0\n" :: ((List.range (maxSignal + 1)).drop 1).map fun n => signalName n ++ "\n")) 0
  | word :: _ =>
    match naturalOf? word with
    | none => t.fault ("Illegal number: " ++ word)
    | some n =>
      let n := if 128 < n then n - 128 else n
      if 0 < n && n ≤ maxSignal then t.print (signalName n ++ "\n") 0
      else t.fault ("invalid signal number or exit status: " ++ word)

/-- Sends signals, or lists their names. -/
def kill (t : Task) : Program :=
  let send (n : Nat) (targets : List String) : Program := if targets.isEmpty then t.fault killUsage else t.signalAll n targets 0
  match t.arguments with
  | [] => t.fault killUsage
  | first :: rest =>
    match first.toList with
    | '-' :: cs =>
      match signalNumber? 1 (String.ofList cs) with
      | some n => send n rest
      | none =>
        t.options "ls:" fun found targets =>
          if found.any (·.1 == 'l') then
            if (found.lookup 's').isSome then t.fault killUsage else t.listSignals targets
          else match found.lookup 's' with
            | none => send Signal.term.number targets
            | some name => match signalNumber? 1 name with
              | some n => send n targets
              | none => t.fault ("invalid signal number or name: " ++ name)
    | _ => send Signal.term.number t.arguments

/-- Sets the traps of several signals in turn. -/
def trapAll (t : Task) (action : Option String) : List String → State → Program
  | [], s => s.proceed 0
  | word :: rest, s =>
    match signalNumber? 0 word with
    | none => .complain ("trap: " ++ word ++ ": bad trap\n") (s.proceed 1)
    | some n =>
      let traps := s.traps.filter (·.1 != n)
      let s := { s with traps := match action with
        | some a => traps ++ [(n, a)]
        | none => traps }
      if n = 0 || s.spared.contains n then trapAll t action rest s
      else
        let disposition : Disposition := match action with
          | none => .default
          | some "" => .ignore
          | some _ => .handler
        .dispose [n] disposition (trapAll t action rest s)

/-- Sets traps, or lists them. -/
def trap (t : Task) : Program :=
  t.options "" fun _ words =>
    match words with
    | [] =>
      let traps := t.state.traps.mergeSort fun a b => a.1 ≤ b.1
      t.print (String.join (traps.map fun v => "trap -- " ++ singleQuoted v.2 ++ " " ++ signalName v.1 ++ "\n")) 0
    | [_] => t.trapAll none words t.state
    | action :: rest =>
      if !action.isEmpty && action.toList.all Char.isDigit then t.trapAll none words t.state
      else t.trapAll (if action == "-" then none else some action) rest t.state

end Task

end JobShell.Machine.Script
