import JobShell.Machine.Delivery
import JobShell.Machine.Loading
import JobShell.Machine.StartUp

/-!
# One step of a process

A step does the one thing that a program asks for next. A process that has to wait, for something to read, for room in a pipe,
for a child or for a time, takes no step; nor does one that is stopped or ended.
-/

namespace JobShell.Machine

/-- What reading from a channel brings. -/
inductive Reading where
  | blocked
  | text (cs : List Char)
  | failed (e : FileError)
  | stopsReader

/-- What is read from a terminal by a process of some session and group. -/
def takeTyped (m : Machine) (session group : Pid) (most : Nat) : Machine × Reading :=
  match m.terminal with
  | none => (m, .failed .inputOutput)
  | some t =>
    if t.owner = some session && t.foreground != group then
      (m, if m.isOrphaned group then .failed .inputOutput else .stopsReader)
    else if t.owner.isNone then (m, .failed .inputOutput)
    else match t.chunks with
      | [] => (m, .blocked)
      | chunk :: rest =>
        let left := chunk.drop most
        ({ m with terminal := some { t with chunks := if left.isEmpty then rest else left :: rest } }, .text (chunk.take most))

/-- Takes at most so many octets from a channel for a process of some session and group. -/
def take (m : Machine) (session group : Pid) (most : Nat) : Option Channel → Machine × Reading
  | some (.pipeRead pipe) | some (.pipeBoth pipe) =>
    match (m.pipes[pipe]?).getD [] with
    | [] => (m, if m.hasWriter pipe then .blocked else .text [])
    | held => ({ m with pipes := m.pipes.setIfInBounds pipe (held.drop most) }, .text (held.take most))
  | some (.file opening true _) =>
    match m.openings[opening]? with
    | none => (m, .failed .badDescriptor)
    | some o =>
      match m.tree.node? o.node with
      | some (.file text _) =>
        let taken := (text.toList.drop o.offset).take most
        ({ m with openings := m.openings.setIfInBounds opening { o with offset := o.offset + taken.length } }, .text taken)
      | _ => (m, .text [])
  | some (.directory _) => (m, .failed .isDirectory)
  | some (.device .terminal) => m.takeTyped session group most
  | some (.device .zeros) | some (.device .full) => (m, .text (List.replicate most '\x00'))
  | some (.device _) => (m, .text [])
  | _ => (m, .failed .badDescriptor)

/-- What writing to a channel comes to. What there is no room for is left over. -/
inductive Writing where
  | blocked
  | failed (e : FileError)
  | done (m : Machine) (left : String)

/-- Writes a text to a channel. -/
def put (m : Machine) (text : String) : Option Channel → Writing
  | some (.pipeWrite pipe) | some (.pipeBoth pipe) =>
    let room := pipeCapacity - ((m.pipes[pipe]?).getD []).length
    if !m.hasReader pipe then .failed .brokenPipe
    else if text.length ≤ room then .done (m.emit (.pipeWrite pipe) text) ""
    else if room = 0 || text.length ≤ pipeUnit then .blocked
    else .done (m.emit (.pipeWrite pipe) (String.ofList (text.toList.take room))) (String.ofList (text.toList.drop room))
  | some (.file opening _ true) => .done (m.writeOpening opening text) ""
  | some (.stream s) => .done (m.emit (.stream s) text) ""
  | some (.device .terminal) =>
    if m.terminal.any (·.paused) then .blocked else .done (m.emit (.device .terminal) text) ""
  | some (.device .full) => .failed .noSpace
  | some (.device _) => .done m ""
  | _ => .failed .badDescriptor

/-- The file that a queue was opened as: its pipe, which is made at the first opening. -/
def queuePipe (m : Machine) (i : Inode) : Machine × Nat :=
  match m.queues.lookup i with
  | some pipe => (m, pipe)
  | none =>
    let (m, pipe) := m.addPipe []
    ({ m with queues := (i, pipe) :: m.queues }, pipe)

/-- A channel that leads where another does, opened anew. -/
def reopened (m : Machine) (mode : OpenMode) : Channel → Except FileError (Machine × Channel)
  | .file opening _ _ =>
    match m.openings[opening]? with
    | none => .error .noDevice
    | some o =>
      let tree := if mode = .write then match m.tree.node? o.node with
          | some (.file _ rights) => m.tree.setNode o.node (.file "" rights)
          | _ => m.tree
        else m.tree
      let (m, opening) := ({ m with tree } : Machine).addOpening { node := o.node, appends := mode = .append }
      .ok (m, .file opening (mode = .read || mode = .update) (mode != .read))
  | .pipeRead pipe | .pipeWrite pipe | .pipeBoth pipe =>
    .ok (m, match mode with
      | .read => .pipeRead pipe
      | .update => .pipeBoth pipe
      | _ => .pipeWrite pipe)
  | c => .ok (m, c)

/-- Opens a path for a process. -/
def openPath (m : Machine) (p : Process) (path : String) (mode : OpenMode) : Except FileError (Machine × Channel) := do
  let found := m.tree.lookUp p.directory path true
  let opened (m : Machine) (i : Inode) : Except FileError (Machine × Channel) :=
    let (m, opening) := m.addOpening { node := i, appends := mode = .append }
    .ok (m, .file opening (mode = .read || mode = .update) (mode != .read))
  let missing : Except FileError (Machine × Channel) := do
    let (tree, i) ← m.tree.openToWrite p.directory path (0o666 &&& (0o777 ^^^ p.mask)) (mode = .write)
    opened { m with tree } i
  match found with
  | .error .notFound => if mode = .read then .error .notFound else missing
  | .error e => .error e
  | .ok (i, n) =>
    if (mode = .read || mode = .update) && !n.isReadable || mode != .read && !n.isWritable then .error .denied
    else match n with
      | .directory .. => if mode = .read then .ok (m, .directory i) else .error .isDirectory
      | .device (.descriptor d) => match p.files.get? d with
        | some c => m.reopened mode c
        | none => .error .notFound
      | .device .terminal => if m.terminal.isSome then .ok (m, .device .terminal) else .error .noDevice
      | .device d => .ok (m, .device d)
      | .queue _ =>
        let (m, pipe) := m.queuePipe i
        m.reopened mode (.pipeRead pipe)
      | .tool _ => if mode = .read then opened m i else .error .denied
      | _ =>
        if mode = .fresh then .error .exists
        else if mode = .write then missing
        else opened m i

/-- The process goes on with a program. -/
def goOn (m : Machine) (p : Process) (program : Program) : Machine := m.modify p.pid fun q => { q with program }

/-- A new process, which begins like the one that made it but has its handlers no more. -/
def spawn (m : Machine) (p : Process) (child : Program) : Machine × Pid :=
  let pid := m.lastPid + 1
  ({ m with
      lastPid := pid
      processes := m.processes ++ [{ p with
        pid, parent := p.pid, life := .running, news := none, program := child
        dispositions := p.dispositions.forProgram, caught := [], pending := [] }] }, pid)

/-- The files of a process that becomes another program: the ones that scripts keep aside are closed. -/
def filesForProgram (o : OpenFiles) : OpenFiles := o.filter fun f => f.1 < 10

/-- The child that there is something to tell of: one with an id, or any. -/
def child? (m : Machine) (p : Process) (how : Awaiting) : Option (Machine × Awaited) :=
  (m.processes.filter fun q => q.parent == p.pid && how.pid.all (· == q.pid)).findSome? fun q =>
    match q.life, q.news with
    | .ended e, _ => some (m.forget q.pid, .ended q.pid e)
    | _, some (.stopped n) =>
      if how.stops then some (m.modify q.pid fun r => { r with news := none }, .stopped q.pid n) else none
    | _, _ => none

/-- A process has a descriptor that was opened; at a queue it first waits for somebody at the other end. -/
def opened (m : Machine) (p : Process) (target : Option Descriptor) (path : String) (c : Channel)
    (next : Except FileError Descriptor → Program) : Machine :=
  let isQueue := match m.tree.nodeAt? p.directory path with
    | some (.queue _) => true
    | _ => false
  let d := target.getD p.files.lowestFree
  let m := m.modify p.pid fun q => { q with files := q.files.put d c }
  m.goOn p (if isQueue then .meet d (next (.ok d)) else next (.ok d))

/-- Somebody is at the other end of a pipe, or has been there. -/
def isMet (m : Machine) : Option Channel → Bool
  | some (.pipeRead pipe) => m.hasWriter pipe || !((m.pipes[pipe]?).getD []).isEmpty
  | some (.pipeWrite pipe) => m.hasReader pipe
  | _ => true

/-- One step of a running process, unless it has to wait. -/
def advance (m : Machine) (p : Process) : Option Machine :=
  match p.program with
  | .exit status => some (m.finish p (.exited status))
  | .read source most next =>
    match m.take p.session p.group most (p.files.get? source) with
    | (_, .blocked) => if p.caught.isEmpty then none else some (m.goOn p (next (.error .interrupted)))
    | (m, .text cs) => some (m.goOn p (next (.ok (String.ofList cs))))
    | (m, .failed e) => some (m.goOn p (next (.error e)))
    | (m, .stopsReader) =>
      if p.dispositions.of Signal.ttin.number = .ignore then some (m.goOn p (next (.error .inputOutput)))
      else some (m.signalGroup p.group Signal.ttin.number).2
  | .write target text next =>
    match m.put text (p.files.get? target) with
    | .blocked => none
    | .failed e =>
      if e = .brokenPipe && p.dispositions.of Signal.pipe.number = .default then
        some (m.finish p (.killed Signal.pipe.number))
      else some (m.goOn p (next (.error e)))
    | .done m left => some (m.goOn p (if left.isEmpty then next (.ok ()) else .write target left next))
  | .seekBack target distance next =>
    match p.files.get? target with
    | some (.file opening _ _) =>
      some (({ m with
        openings := m.openings.modify opening fun o => { o with offset := o.offset - distance } } : Machine).goOn p next)
    | _ => some (m.goOn p next)
  | .openFile target path mode next =>
    match m.openPath p path mode with
    | .ok (m, channel) => some (m.opened p target path channel next)
    | .error e => some (m.goOn p (next (.error e)))
  | .meet target next => if m.isMet (p.files.get? target) then some (m.goOn p next) else none
  | .duplicate source target next =>
    match p.files.get? source with
    | some channel => some (m.modify p.pid fun q => { q with program := next true, files := q.files.put target channel })
    | none => some (m.goOn p (next false))
  | .close target next => some (m.modify p.pid fun q => { q with program := next, files := q.files.close target })
  | .pipe next =>
    let (m, pipe) := m.addPipe []
    let r := p.files.lowestFree
    let files := p.files.put r (.pipeRead pipe)
    let w := files.lowestFree
    some (m.modify p.pid fun q => { q with program := next r w, files := files.put w (.pipeWrite pipe) })
  | .inspect next => some (m.goOn p (next fun d => p.files.get? d))
  | .consult next => some (m.goOn p (next m.tree p.directory))
  | .change next =>
    let (tree, program) := next m.tree p.directory
    some (({ m with tree } : Machine).goOn p program)
  | .enter path next =>
    match m.tree.directory p.directory path with
    | .ok directory => some (m.modify p.pid fun q => { q with program := next (.ok ()), directory })
    | .error e => some (m.goOn p (next (.error e)))
  | .fork child next =>
    let (m, pid) := m.spawn p child
    some (m.goOn p (next pid))
  | .awaitChild how next =>
    match m.child? p how with
    | some (m, answer) => some (m.goOn p (next answer))
    | none =>
      if !m.processes.any (fun q => q.parent == p.pid && how.pid.all (· == q.pid)) then some (m.goOn p (next .noChild))
      else if how.interruptible && !p.caught.isEmpty then some (m.goOn p (next .interrupted))
      else if !how.blocks || how.deadline.any (· ≤ m.clock) then some (m.goOn p (next .timedOut))
      else none
  | .signal target n next =>
    let (result, after) := m.signalFrom p target n
    match result with
    | .ok () => some ((m.goOn p (next result)).signalFrom p target n).2
    | .error _ => some (after.goOn p (next result))
  | .ignored next => some (m.goOn p (next p.dispositions.ignored))
  | .dispose signals target next =>
    some (m.modify p.pid fun q =>
      { q with program := next, dispositions := signals.foldl (fun d n => d.set n target) q.dispositions })
  | .identify next => some (m.goOn p (next p.pid p.parent))
  | .regroup target next =>
    match target with
    | none => some (m.modify p.pid fun q => { q with program := next, group := p.pid, session := p.pid })
    | some (pid, group) =>
      some ((m.modify pid fun q => if q.isAlive then { q with group } else q).goOn p next)
  | .foreground change next =>
    match m.terminal with
    | none => some (m.goOn p (next none))
    | some t =>
      if t.owner != some p.session then some (m.goOn p (next none))
      else match change with
        | none => some (m.goOn p (next (some t.foreground)))
        | some group =>
          if t.foreground != p.group && p.dispositions.of Signal.ttou.number = .default && !m.isOrphaned p.group then
            some (m.signalGroup p.group Signal.ttou.number).2
          else some (({ m with terminal := some { t with foreground := group } } : Machine).goOn p (next (some group)))
  | .mask change next => some (m.modify p.pid fun q => { q with program := next p.mask, mask := change.getD p.mask })
  | .clock next => some (m.goOn p (next m.clock))
  | .sleepUntil time next => if time ≤ m.clock then some (m.goOn p next) else none
  | .execute file searches call failed =>
    match if searches then load m.tree p.directory file call else loadFile m.tree p.directory file call with
    | .ok program =>
      some (m.modify p.pid fun q =>
        { q with program, files := filesForProgram q.files, dispositions := q.dispositions.forProgram })
    | .error e => some (m.goOn p (failed e))
  | .script s =>
    some (m.modify p.pid fun q => { q with program := Script.step q.caught s, caught := [] })
  | .startUp steps => some (m.takeSteps p.pid steps)

end JobShell.Machine
