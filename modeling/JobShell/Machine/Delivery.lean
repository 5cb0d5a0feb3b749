import JobShell.Machine.Process

/-!
# Delivering signals

A signal to a process that is stopped waits, unless it kills the process or lets it go on. What else becomes of a signal is a
matter of the disposition: it is ignored, handed to the handler, or has its default action, which is to kill, to stop, or
nothing. A group is signalled process by process; processes that ended and were not collected still count as members.

A group is orphaned when none of its members has a parent in another group of the session. The keyboard cannot stop it, and
a group that becomes orphaned while members of it are stopped is hung up and made to go on.
-/

namespace JobShell.Machine

/-- What a signal does by default. -/
inductive DefaultAction where
  | nothing | stop | kill
  deriving DecidableEq, Repr

/-- The default action of a signal. -/
def defaultAction (n : Nat) : DefaultAction :=
  match Signal.ofNumber? n with
  | some .chld | some .urg | some .winch | some .cont => .nothing
  | some .stop | some .tstp | some .ttin | some .ttou => .stop
  | _ => .kill

/-- Writes a text into the file of an opening. -/
def writeOpening (m : Machine) (opening : Nat) (text : String) : Machine :=
  match m.openings[opening]? with
  | none => m
  | some o =>
    let offset := if o.appends then m.tree.size o.node else o.offset
    { m with
      tree := m.tree.writeAt o.node offset text
      openings := m.openings.setIfInBounds opening { o with offset := offset + text.length } }

/-- Writes a text to a channel that takes it at once. -/
def emit (m : Machine) (c : Channel) (text : String) : Machine :=
  match c with
  | .stream .out => { m with out := m.out ++ text }
  | .stream .err => { m with err := m.err ++ text }
  | .device .terminal => { m with terminal := m.terminal.map (·.write text) }
  | .file opening _ _ => m.writeOpening opening text
  | .pipeWrite pipe | .pipeBoth pipe => { m with pipes := m.pipes.modify pipe (· ++ text.toList) }
  | _ => m

/-- The shell writes to one of its descriptors. -/
def shellWrites (m : Machine) (d : Descriptor) (text : String) : Machine :=
  match m.shell.files.get? d with
  | some c => m.emit c text
  | none => m

/-- The group and the session of a parent, while it lives. -/
def kinOf? (m : Machine) (pid : Pid) : Option (Pid × Pid) :=
  if pid = m.shell.pid then if m.shell.isAlive then some (m.shell.group, m.shell.session) else none
  else (m.process? pid).bind fun p => if p.isAlive then some (p.group, p.session) else none

/-- No member of the group has a parent in another group of the session. -/
def isOrphaned (m : Machine) (group : Pid) : Bool :=
  m.shell.group != group &&
    !m.processes.any fun p => p.isAlive && p.group == group && (m.kinOf? p.parent).any fun k => k.1 != group && k.2 == p.session

/-- A group with a member that is stopped. -/
def hasStopped (m : Machine) (group : Pid) : Bool := m.processes.any fun p => p.group == group && p.isStopped

/-- The signals that are not to be handed out before the shell's handlers have run: the handlers note that a child changed, and
begin a new line on an interrupt. Any other signal kills the shell or is ignored. -/
def reachShell (m : Machine) (n : Nat) : Machine :=
  if n = 0 || !m.shell.isAlive then m
  else match if n = Signal.kill.number then .default else m.shell.signals.dispositions.of n with
    | .handler =>
      if n = Signal.chld.number then
        m.modifyShell fun s => { s with signals := { s.signals with childChanged := true } }
      else m.shellWrites 1 "\n"
    | .ignore => m
    | .default =>
      match defaultAction n with
      | .kill => m.modifyShell fun s => { s with killed := some n, isAlive := false }
      | _ => m

/-- The parent of a process learns that it changed. -/
def tellParent (m : Machine) (p : Process) : Machine :=
  if p.parent = m.shell.pid then m.reachShell Signal.chld.number
  else m.modify p.parent fun q =>
    if q.dispositions.of Signal.chld.number = .handler then { q with caught := q.caught ++ [Signal.chld.number] } else q

/-- A process stops. -/
def halt (m : Machine) (p : Process) (n : Nat) : Machine :=
  (m.modify p.pid fun q => { q with life := .stopped n, news := some (.stopped n) }).tellParent p

/-- The signals that come from a fault of the process itself, and come first. -/
def faultSignals : List Nat := [Signal.ill, .trap, .bus, .fpe, .segv, .sys].map Signal.number

/-- Signals in the order in which they are taken: faults first, then by number. -/
def inOrder (signals : List Nat) : List Nat :=
  let sorted := signals.mergeSort (· ≤ ·)
  sorted.filter faultSignals.contains ++ sorted.filter fun n => !faultSignals.contains n

mutual

/-- A process ends. Its children lose their parent, and the ones that ended before are forgotten; groups that become orphaned
with stopped members go on. At most `depth` ends follow from one. -/
def finishWith : (depth : Nat) → Machine → Process → ChildEnd → Machine
  | 0, m, _, _ => m
  | depth + 1, m, p, how =>
    let children := m.processes.filter fun q => q.parent == p.pid && q.isAlive
    let groups := ((p.group :: children.map (·.group)).eraseDups).filter fun g => !m.isOrphaned g
    let kept := m.processes.filter fun q => q.isAlive || q.parent != p.pid
    let m := { m with processes := kept.map fun (q : Process) => if q.parent == p.pid then { q with parent := firstPid } else q }
    let m :=
      if p.parent = firstPid then m.forget p.pid
      else (m.modify p.pid fun q => { q with life := .ended how, news := none, files := [] }).tellParent p
    releaseWith depth m groups

/-- Hangs up the groups that are orphaned and have stopped members, and lets them go on. -/
def releaseWith : (depth : Nat) → Machine → List Pid → Machine
  | 0, m, _ => m
  | depth + 1, m, groups =>
    (groups.filter fun g => m.isOrphaned g && m.hasStopped g).foldl (fun m g =>
      [Signal.hup, .cont].foldl (fun m s =>
        ((m.processes.filter (·.group == g)).map (·.pid)).foldl (fun m pid => reachWith depth m pid s.number) m) m) m

/-- Signals take effect on a process, as long as it is running. -/
def actWith : (depth : Nat) → Machine → Pid → List Nat → Machine
  | 0, m, _, _ => m
  | _, m, _, [] => m
  | depth + 1, m, pid, n :: rest =>
    match m.process? pid with
    | none => m
    | some p =>
      match p.life with
      | .stopped _ => m.modify pid fun q => { q with pending := q.pending ++ (n :: rest) }
      | .ended _ => m
      | .running =>
        let m := match p.dispositions.of n with
          | .ignore => m
          | .handler => m.modify pid fun q => { q with caught := if q.caught.contains n then q.caught else q.caught ++ [n] }
          | .default =>
            match defaultAction n with
            | .nothing => m
            | .stop => if n != Signal.stop.number && m.isOrphaned p.group then m else m.halt p n
            | .kill => finishWith depth m p (.killed n)
        actWith depth m pid rest

/-- A signal reaches a process. A stopped process that goes on takes the signals that waited for that. -/
def reachWith : (depth : Nat) → Machine → Pid → Nat → Machine
  | 0, m, _, _ => m
  | depth + 1, m, pid, n =>
    match m.process? pid with
    | none => m
    | some p =>
      if !p.isAlive || n = 0 then m
      else if n = Signal.kill.number then finishWith depth m p (.killed n)
      else if n = Signal.cont.number then
        let waiting := p.pending.filter fun k => defaultAction k != .stop
        let m := if p.isStopped then
            (m.modify pid fun q => { q with life := .running, news := some .continued, pending := [] }).tellParent p
          else m
        actWith depth m pid (inOrder (n :: waiting))
      else if n = Signal.stop.number then if p.isStopped then m else m.halt p n
      else if p.isStopped then
        if p.dispositions.of n = .ignore || p.pending.contains n then m
        else m.modify pid fun q => { q with pending := q.pending ++ [n] }
      else actWith depth m pid [n]

end

/-- How many effects of one signal may follow from each other. -/
def signalDepth : Nat := 1000

/-- A process ends. -/
def finish (m : Machine) (p : Process) (how : ChildEnd) : Machine := finishWith signalDepth m p how

/-- A signal reaches a process. -/
def reach (m : Machine) (pid : Pid) (n : Nat) : Machine := reachWith signalDepth m pid n

/-- The signals that there are. -/
def maxSignal : Nat := 64

/-- Sends a signal to one process. -/
def signalOne (m : Machine) (pid : Pid) (n : Nat) : Except Errno Unit × Machine :=
  if maxSignal < n then (.error .invalid, m)
  else if pid = m.shell.pid && m.shell.isAlive then (.ok (), m.reachShell n)
  else match m.process? pid with
    | some _ => (.ok (), m.reach pid n)
    | none => (.error .noProcess, m)

/-- Sends a signal to all processes of a group. -/
def signalGroup (m : Machine) (group : Pid) (n : Nat) : Except Errno Unit × Machine :=
  if maxSignal < n then (.error .invalid, m)
  else
    let members := (m.processes.filter (·.group == group)).map (·.pid)
    let shellToo := m.shell.group = group && m.shell.isAlive
    if members.isEmpty && !shellToo then (.error .noProcess, m)
    else
      let m := members.foldl (fun m pid => m.reach pid n) m
      (.ok (), if shellToo then m.reachShell n else m)

/-- Sends a signal as a process asks for it: a negative target is a group, and zero is the group of the sender. -/
def signalFrom (m : Machine) (sender : Process) (target : Pid) (n : Nat) : Except Errno Unit × Machine :=
  if target = 0 then m.signalGroup sender.group n
  else if target < 0 then m.signalGroup (-target) n
  else m.signalOne target n

/-- The shell ends. Its children lose their parent, and the group in the foreground of its terminal is hung up. -/
def endShell (m : Machine) : Machine :=
  let groups := ((m.processes.map (·.group)).eraseDups).filter fun g => !m.isOrphaned g
  let m := m.modifyShell fun s => { s with isAlive := false, files := [] }
  let kept := m.processes.filter fun q => q.isAlive || q.parent != m.shell.pid
  let m := { m with
    processes := kept.map fun (q : Process) => if q.parent == m.shell.pid then { q with parent := firstPid } else q }
  let m := match m.terminal with
    | some t =>
      ((if t.owner = some m.shell.session then (m.signalGroup t.foreground Signal.hup.number).2 else m) : Machine)
    | none => m
  releaseWith signalDepth { m with terminal := m.terminal.map fun t => { t with owner := none } } groups

/-- A key is typed on the terminal. -/
def typeKey (m : Machine) (c : Char) : Machine :=
  match m.terminal with
  | none => m
  | some t =>
    match if t.literal then none else Terminal.keySignal? c with
    | some s => (({ m with terminal := some t.flush } : Machine).signalGroup t.foreground s.number).2
    | none => { m with terminal := some (t.typeKey c) }

end JobShell.Machine
