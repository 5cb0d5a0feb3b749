import JobShell.Machine.Advance

/-!
# Letting the machine run

The machine runs in rounds, in which every process that can take a step takes one, and comes to rest when none can. Then who
sits at the terminal may type, or time goes on to the next moment at which somebody wants to be woken. A process that always
has something to do keeps the machine from coming to rest; it counts as at rest after a fixed number of rounds, and time goes
on a little then.
-/

namespace JobShell.Machine

/-- The machine after what follows when a signal has killed the shell. -/
def buryShell (m : Machine) : Machine := if m.shell.killed.isSome && !m.shell.files.isEmpty then m.endShell else m

/-- One round; says whether any process took a step. -/
def round (m : Machine) : Machine × Bool :=
  m.processes.foldl (fun (m, moved) p =>
    match m.process? p.pid with
    | some p =>
      if p.life = .running then
        match m.advance p with
        | some m => (m.buryShell, true)
        | none => (m, moved)
      else (m, moved)
    | none => (m, moved)) (m, false)

/-- At most so many rounds; says whether the machine is at rest. -/
def rounds : Nat → Machine → Machine × Bool
  | 0, m => (m, false)
  | n + 1, m =>
    match m.round with
    | (m, true) => rounds n m
    | (m, false) => (m, true)

/-- How many rounds the machine gets to come to rest. -/
def roundLimit : Nat := 3000

/-- Lets the machine run and whoever sits at the terminal type, at most so many times. -/
def settleWith : Nat → Machine → Machine × Bool
  | 0, m => rounds roundLimit m
  | n + 1, m =>
    match rounds roundLimit m with
    | (m, rested) =>
      match m.terminal.bind Terminal.next? with
      | some (text, t) => settleWith n (text.toList.foldl typeKey { m with terminal := some t }).buryShell
      | none => (m, rested)

/-- Lets the machine run until it is at rest; says whether it is. -/
def settle (m : Machine) : Machine × Bool :=
  settleWith ((m.terminal.map fun t => t.dialog.length).getD 0) m

/-- When the next process wants to be woken. -/
def nextTimer? (m : Machine) : Option Nat :=
  (m.processes.filterMap fun p =>
    if p.life = .running then
      match p.program with
      | .sleepUntil time _ => some time
      | .awaitChild how _ => how.deadline
      | _ => none
    else none).min?

/-- How far time goes on when the machine is not at rest. -/
def busyPause : Nat := 1000

/-- The time at which something can happen next, on a machine that has settled. -/
def nextTime? (m : Machine) (rested : Bool) : Option Nat :=
  ([m.nextTimer?, m.alarm, if rested then none else some (m.clock + busyPause)].filterMap id).min?

/-- The shell is to be woken. -/
def alarmDue (m : Machine) : Bool := m.alarm.any (· ≤ m.clock)

/-- Lets time go on to a given time, through at most so many moments at which something happens. -/
def runUntil (time : Nat) : Nat → Machine → Machine
  | 0, m => { m with clock := max m.clock time }
  | n + 1, m =>
    let m := m.settle.1
    match m.nextTimer?.filter (· ≤ time) with
    | some t => runUntil time n { m with clock := max m.clock t }
    | none => ({ m with clock := max m.clock time } : Machine).settle.1

/-- Lets time go on. -/
def passTime (duration : Nat) (m : Machine) : Machine := runUntil (m.clock + duration) 10000 m

/-- Somebody can still write where the machine's output goes. -/
def isHeard (m : Machine) : Bool :=
  m.holds fun c => match c with
    | .stream _ | .device .terminal => true
    | _ => false

/-- Lets the machine run on after the shell has ended, until nobody can write any more, through at most so many moments. -/
def runOut : Nat → Machine → Machine
  | 0, m => m
  | n + 1, m =>
    let (m, rested) := m.settle
    if !m.isHeard then m
    else match m.nextTime? rested with
      | some t => runOut n { m with clock := max m.clock t }
      | none => m

/-- How many moments the machine runs on. -/
def runOutLimit : Nat := 20000

/-- The machine when the shell has ended and all output has been written. -/
def wound (m : Machine) : Machine :=
  runOut runOutLimit ({ (if m.shell.isAlive then m.endShell else m.buryShell) with alarm := none } : Machine)

end JobShell.Machine
