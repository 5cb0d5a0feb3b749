import JobShell.Machine.Script.Builtin.Directory
import JobShell.Machine.Script.Builtin.Jobs
import JobShell.Machine.Script.Builtin.Output
import JobShell.Machine.Script.Builtin.Variables
import JobShell.Machine.Script.Finding

/-!
# Steps of a script

A step takes the next frame of a script and says what program that is; the script goes on from there. A signal with a trap
waits for the step after it, and a script that has nothing left to do runs the trap of its end once. A command in the last
place of a reusable script takes over the process instead of getting one of its own.
-/

namespace JobShell.Machine.Script

/-! ## Starting processes -/

/-- Nothing but this command is left of a reusable script without traps. -/
def State.isLast (s : State) : Bool := s.frames.isEmpty && s.reusable && s.traps.all (·.2 == "")

/-- The script with a command after which it ends if it is to end on failure. -/
def State.judged (s : State) (tested : Bool) : State := if tested then s else s.push .judge

/-- Starts a process and waits for it. -/
def State.forkAndCollect (s : State) (child : Program) : Program :=
  .fork child fun pid => .script (s.takeSlot.2.push (.collect [pid]))

/-- The first child of a command in the background: keys do not interrupt it, and there is nothing for it to read. -/
def inBackground (isFirst : Bool) (child : Program) : Program :=
  .dispose [Signal.int.number, Signal.quit.number] .ignore
    (if isFirst then .close 0 (.openFile (some 0) "/dev/null" .read fun _ => child) else child)

/-- Starts the stages of a pipeline and goes on with their processes. -/
def startStages (s : State) (background tested : Bool) (next : List Pid → Program) :
    (input : Option Descriptor) → (pids : List Pid) → List Command → Program
  | _, pids, [] => next pids
  | input, pids, c :: rest =>
    let child (output : Program → Program) : Program :=
      let connected : Program := match input with
        | some r => .duplicate r 0 fun _ => .close r (s.child c tested)
        | none => s.child c tested
      output (if background then inBackground input.isNone connected else connected)
    if rest.isEmpty then .fork (child id) fun pid => .closeAll input.toList (next (pids ++ [pid]))
    else .pipe fun r w =>
      .fork (child fun go => .close r (.duplicate w 1 fun _ => .close w go)) fun pid =>
        .closeAll (input.toList ++ [w]) (startStages s background tested next (some r) (pids ++ [pid]) rest)

/-- Becomes the first of some files that can be run, or goes on with the reason why none can. -/
def becomeFirst (call : Call) (failed : FileError → Program) : List String → (reason : FileError) → Program
  | [], reason => failed reason
  | path :: rest, reason =>
    .execute path false call fun e =>
      becomeFirst call failed rest (if e = .notFound || e = .notDirectory then reason else e)

/-! ## Commands of a script's own -/

/-- Runs a text in the place of a command. -/
def runText (s : State) (text : String) (within : Option String) (isFile tested : Bool) : Program :=
  let source : Source := { rest := text.toList, aliases := s.aliases }
  let s := match nextCommand source with
    | .ok (none, _, _) => s.withStatus 0
    | _ => s
  .script (({ s with within }.push (.leaveText s.within isFile)).push (.read source none tested))

namespace Task

/-- Leaves loops, or begins the last of them again. -/
def leaveLoops (t : Task) (continues : Bool) : Program :=
  match t.arguments with
  | [] => .script (t.state.afterLoops continues 1)
  | word :: _ => match naturalOf? word with
    | some (n + 1) => .script (t.state.afterLoops continues (n + 1))
    | _ => t.fault ("Illegal number: " ++ word)

/-- The status that a word asks for, or one that holds without a word. -/
def withStatusOf (t : Task) (default_ : Nat) (next : Nat → Program) : Program :=
  match t.arguments with
  | [] => next default_
  | word :: _ => match naturalOf? word with
    | some n => next n
    | none => t.fault ("Illegal number: " ++ word)

/-- Leaves a function or a file. -/
def return_ (t : Task) : Program :=
  t.withStatusOf t.state.status fun n => .script { t.state with frames := State.returnFrames t.state.frames, status := n }

/-- The status before the traps at work. -/
def statusBeforeTraps (s : State) : Nat :=
  (s.frames.filterMap fun
    | .resume n => some n
    | _ => none).getLast?.getD s.status

/-- Ends the script. -/
def exit (t : Task) : Program := t.withStatusOf (statusBeforeTraps t.state) t.state.leave

/-- Becomes another program. -/
def exec (t : Task) : Program :=
  match t.arguments with
  | [] => t.done
  | name :: args =>
    let s := { t.state with within := some t.name }
    let call : Call := { name, arguments := args, environment := s.environment }
    let failed (e : FileError) : Program :=
      .complain (s.message (name ++ ": " ++ commandFault e)) (t.state.leave (commandStatus e))
    becomeFirst call failed (if name.toList.contains '/' then [name] else s.searchPath.map fun d => pathIn d name) .notFound

/-- Runs the text of a file. -/
def source (t : Task) (tested : Bool) : Program :=
  t.options "" fun _ words =>
    match words with
    | [] => t.done
    | file :: _ => .consult fun fs cwd =>
      let isThere (path : String) : Bool := (fs.nodeAt? cwd path).any (·.isFile)
      match if file.toList.contains '/' then some file else (t.state.searchPath.map fun d => pathIn d file).find? isThere with
      | none => t.fault (file ++ ": not found")
      | some path => match fs.text cwd path with
        | .ok text => runText t.state text (some path) true tested
        | .error .isDirectory => t.done
        | .error e => t.fault ("cannot open " ++ path ++ ": " ++ openingFault false e)

/-- Runs a task. -/
def run (t : Task) (tested : Bool) : Program :=
  match t.name with
  | ":" | "true" => t.done
  | "false" => t.state.proceed 1
  | "." => t.source tested
  | "[" | "test" => t.test
  | "alias" => t.setAliases
  | "bg" | "fg" => t.moveJob
  | "break" => t.leaveLoops false
  | "cd" | "chdir" => t.changeDirectory
  | "command" => t.options "pvV" fun found names =>
      match found.find? fun o => o.1 != 'p' with
      | some o => t.describe (o.1 == 'V') (names.take 1)
      | none => t.done
  | "continue" => t.leaveLoops true
  | "echo" => t.echo
  | "eval" => runText t.state (" ".intercalate t.arguments) (some t.name) false tested
  | "exec" => t.exec
  | "exit" => t.exit
  | "export" => t.markOrList (fun b => { b with exported := true }) (·.exported)
  | "getopts" => t.takeOption
  | "hash" => t.hash
  | "jobs" => t.jobs
  | "kill" => t.kill
  | "local" => t.makeLocal
  | "printf" => t.printf
  | "pwd" => t.printDirectory
  | "read" => t.read
  | "readonly" => t.markOrList (fun b => { b with constant := true }) (·.constant)
  | "return" => t.return_
  | "set" => t.set
  | "shift" => t.shift
  | "times" => t.times
  | "trap" => t.trap
  | "type" => t.describe true t.arguments
  | "ulimit" => t.limit
  | "umask" => t.mask
  | "unalias" => t.unsetAliases
  | "unset" => t.unset
  | "wait" => t.wait
  | _ => t.done

end Task

/-! ## Simple commands -/

/-- The words of a simple command without the ones that only ask for a command that is no function: whether there were such
words, whether the standard directories are to be searched, and the words left. -/
def withoutCommandWord : (fuel : Nat) → List String → Bool × Bool × List String
  | 0, fields => (false, false, fields)
  | fuel + 1, "command" :: rest =>
    let again (standard : Bool) (rest : List String) : Bool × Bool × List String :=
      if rest.isEmpty then (false, false, ["command"])
      else
        let (_, more, fields) := withoutCommandWord fuel rest
        (true, standard || more, fields)
    match rest with
    | "-p" :: "--" :: rest | "-p" :: rest => again true rest
    | "--" :: rest => again false rest
    | first :: _ => if first.startsWith "-" && 1 < first.length then (false, false, "command" :: rest) else again false rest
    | [] => (false, false, ["command"])
  | _, fields => (false, false, fields)

/-- Expands the words of a simple command; a command that takes assignments gets them in one piece. -/
def expandCommand : List Word → State → (State → List String → Program) → Program
  | [], s, next => next s []
  | w :: ws, s, next =>
    expandWord s w fun s fields =>
      match fields with
      | [] => expandCommand ws s next
      | name :: _ =>
        if declaringNames.contains name && (s.functions.find? (·.name == name)).isNone || name == "command" then
          expandDeclarations ws s fun s more => next s (fields ++ more)
        else expandWords ws s fun s more => next s (fields ++ more)

/-- The text that a script shows of a command before it runs it. -/
def trace (s : State) (assigned : List (String × String)) (fields : List String) : String :=
  (s.get? "PS4").getD "" ++ " ".intercalate ((assigned.map fun a => a.1 ++ "=" ++ a.2) ++ fields) ++ "\n"

/-- The script with a variable set for the time of one command. -/
def exportVariable (s : State) (name value : String) : State :=
  let s := s.assign name value
  s.bind { (s.binding? name).getD { name, value := none } with exported := true }

/-- Runs a command that is a file, in a process of its own if the script is to go on after it. -/
def runFile (s : State) (last : Bool) (environment : Environment) (name : String) (args : List String)
    (paths : List String) : Program :=
  let call : Call := { name, arguments := args, environment }
  let go := becomeFirst call
    (fun e => .fail (s.message (name ++ ": " ++ commandFault e)) (commandStatus e)) paths .notFound
  if last then go else s.forkAndCollect go

/-- Runs a simple command. -/
def runSimple (s : State) (c : SimpleCommand) (tested : Bool) : Program :=
  let last := s.isLast
  expandCommand c.words { s with at_ := c.line, outputStatus := none } fun s fields =>
    let (plain, standard, fields) := withoutCommandWord fields.length fields
    let name := fields.headD ""
    let isSpecial := fatalNames.contains name && !fields.isEmpty
    let isFatal := isSpecial && !plain
    let stays := name == "exec"
    expandRedirections c.redirections s fun s rs =>
      (if stays then fun next => next [] else keepTargets rs) fun saved =>
        let s := s.judged tested
        let s := if saved.isEmpty then s else s.push (.restore saved)
        redirect s rs
          (run last plain standard isFatal (fields.isEmpty || isSpecial) saved s fields)
          (if isFatal then s.leave 2 else s.proceed 2)
where
  /-- Makes the assignments and runs what the words name. -/
  run (last plain standard isFatal isGlobal : Bool) (saved : List (Descriptor × Descriptor)) (before : State)
      (fields : List String) : Program :=
    let set (s : State) (name value : String) : State :=
      if isGlobal && (fields.headD "" != "exec" || fields.length < 2) then s.assign name value else exportVariable s name value
    expandAssignments set c.assignments before fun s assigned =>
      let report (next : Program) : Program :=
        if s.has 'x' && !(fields.isEmpty && assigned.isEmpty) then
          .write (((saved.find? (·.2 == 2)).map (·.1)).getD 2) (trace s assigned fields) fun _ => next
        else next
      let kept : List (String × Option Binding) :=
        if isGlobal then [] else (c.assignments.map fun a => (a.1, before.binding? a.1)).reverse
      let inner := if kept.isEmpty then s else { s with frames := .rebind kept :: before.frames }
      report (match fields with
        | [] => s.proceed (s.outputStatus.getD 0)
        | name :: args =>
          .consult fun fs cwd =>
            let searched := if standard then (s.assign "PATH" "/usr/sbin:/usr/bin:/sbin:/bin") else s
            match searched.meaning fs cwd plain name with
            | .special => { state := s, name, arguments := args, isFatal : Task }.run tested
            | .own => { state := inner, name, arguments := args, isFatal : Task }.run tested
            | .function f =>
              let frames := .run f.body tested :: .leaveFunction s.arguments s.index s.place :: before.frames
              .script { s with frames, arguments := args, index := 1, place := 0, locals := kept :: s.locals }
            | .file paths =>
              runFile ((Task.restored s kept).noteFound name paths) last s.environment name args paths
            | .unknown e => .complain (s.message (name ++ ": " ++ commandFault e)) (inner.proceed 127))

/-! ## Commands -/

/-- Runs a command in the background. -/
def runInBackground (s : State) (c : Command) : Program :=
  let done (pids : List Pid) : Program := (s.addJob pids).proceed 0
  match c with
  | .pipeline stages => startStages s true false done none [] stages
  | c => .fork (inBackground true (s.child c false)) fun pid => done [pid]

/-- Runs a command. -/
def runCommand (s : State) (tested : Bool) : Command → Program
  | .nothing => s.proceed 0
  | .simple c => runSimple s c tested
  | .pipeline stages =>
    startStages s false tested (fun pids => .script ((s.takeSlot.2.judged tested).push (.collect pids))) none [] stages
  | .sequence a b => .script ((s.push (.run b tested)).push (.run a tested))
  | .both a b => .script ((s.push (.both b tested)).push (.run a true))
  | .either a b => .script ((s.push (.either b tested)).push (.run a true))
  | .negation c => .script ((s.push .invert).push (.run c true))
  | .background c => runInBackground s c
  | .subshell line c rs =>
    let last := s.isLast
    expandRedirections rs { s with at_ := line } fun s rs =>
      if last then redirect s rs (.script { s.push (.run c tested) with jobs := [] }) (.exit 2)
      else (s.judged tested).forkAndCollect (redirect s rs (s.child c tested) (.exit 2))
  | .redirected line c rs =>
    expandRedirections rs { s with at_ := line } fun s rs =>
      keepTargets rs fun saved =>
        let s := (s.judged tested).push (.restore saved)
        redirect s rs (.script (s.push (.run c tested))) (s.proceed 2)
  | .choice condition yes no => .script ((s.push (.choose yes no tested)).push (.run condition true))
  | .loop until_ condition body => .script ((s.withStatus 0).push (.again until_ condition body tested))
  | .each line name words body =>
    expandWords words { s with at_ := line } fun s values =>
      .script ((s.withStatus 0).push (.iterate name values body tested))
  | .select line word branches =>
    expandText { s with at_ := line } false word fun s text => selectBranch s text branches
  | .define name line body =>
    { s with functions := { name, line, body } :: s.functions.filter (·.name != name) }.proceed 0
where
  /-- Runs the first branch with a pattern that fits. -/
  selectBranch (s : State) (text : String) : List (List Word × Command) → Program
    | [] => s.proceed 0
    | (patterns, body) :: rest =>
      patterns.foldr (fun w next => expandPattern s w fun s p =>
        if p.fits text.toList then .script ((match body with
          | .nothing => s.withStatus 0
          | _ => s).push (.run body tested)) else next) (selectBranch s text rest)

/-! ## Frames -/

/-- Reads the next command of a text; more of a text that is open is read from its descriptor. -/
def runNext (s : State) (source : Source) (input : Option Descriptor) (tested : Bool) : Program :=
  let source := { source with aliases := s.aliases, documents := [], nextDocument := s.documents.length }
  match nextCommand source with
  | .error (.at line text) =>
    if s.has 'i' && input.isSome then
      .complain ({ s with at_ := line }.message text)
        (.script ((s.withStatus 2).push (.read { source with rest := [] } input tested)))
    else { s with at_ := line }.abort text
  | .error .incomplete =>
    let prompt := if s.has 'i' then (s.get? (if source.rest.isEmpty then "PS1" else "PS2")).getD "" else ""
    .complain prompt (.read (input.getD 0) 8192 fun
      | .ok text =>
        .script (s.push (.read
          { source with rest := source.rest ++ text.toList, isOpen := !text.isEmpty } input tested))
      | .error .interrupted => .script (s.push (.read source input tested))
      | .error _ => .script (s.push (.read { source with isOpen := false } input tested)))
  | .ok (none, _, _) => .script s
  | .ok (some c, rest, ended) =>
    let s := { s with documents := rest.documents ++ s.documents }
    let s := if ended then s else s.push (.read rest input tested)
    match c with
    | some c => .script (s.push (.run c tested))
    | none => .script s

/-- Waits for the jobs with some numbers. A job that has been waited for before is known to have ended. -/
def runAwait (s : State) (reports : Bool) : List Nat → Program
  | [] => .script s
  | number :: rest =>
    match s.jobs.find? (·.number == number) with
    | none => .script (s.push (.await rest reports))
    | some j =>
      match j.pids.find? fun p => (j.ends.lookup p).isNone with
      | none =>
        let s := s.changeJob number fun j => { j with waited := true }
        let s := if reports then s.withStatus ((j.end?.map ChildEnd.status).getD 0) else s
        .script (s.push (.await rest reports))
      | some pid =>
        .awaitChild { pid := some pid, interruptible := true } fun
          | .ended _ e =>
            let s := s.changeJob number fun j => { j with ends := (pid, e) :: j.ends }
            let go : Program := .script (s.push (.await (number :: rest) reports))
            if reports then reportEnd e go else go
          | .noChild =>
            let s := s.changeJob number fun j => { j with ends := (pid, .exited 127) :: j.ends }
            .script (s.push (.await (number :: rest) reports))
          | _ => .script (s.push (.await (number :: rest) reports))

/-- Runs what a frame asks for; `s` is the script without the frame. -/
def runFrame (s : State) : Frame → Program
  | .run c tested => if s.has 'n' then .script s else runCommand s tested c
  | .both c tested => .script (if s.status = 0 then s.push (.run c tested) else s)
  | .either c tested => .script (if s.status = 0 then s else s.push (.run c tested))
  | .invert => s.proceed (if s.status = 0 then 1 else 0)
  | .choose yes no tested => .script (s.push (.run (if s.status = 0 then yes else no) tested))
  | .check until_ condition body last tested =>
    if (s.status == 0) != until_ then .script ((s.push (.again until_ condition body tested)).push (.run body tested))
    else s.proceed last
  | .again until_ condition body tested =>
    .script ((s.push (.check until_ condition body s.status tested)).push (.run condition true))
  | .iterate name values body tested =>
    match values with
    | [] => .script s
    | v :: rest =>
      if s.isConstant name then s.abort (name ++ ": is read only")
      else .script (((s.assign name v).push (.iterate name rest body tested)).push (.run body tested))
  | .restore saved => putBackTargets saved (.script s)
  | .rebind saved => .script (Task.restored s saved)
  | .collect [] => .script s
  | .collect (pid :: rest) =>
    .awaitChild { pid := some pid } fun
      | .ended _ e => reportEnd e (.script ((s.withStatus e.status).push (.collect rest)))
      | _ => .script (s.push (.collect rest))
  | .judge => if s.has 'e' && s.status != 0 then s.leave s.status else .script s
  | .await numbers reports => runAwait s reports numbers
  | .read source input tested => runNext s source input tested
  | .resume status => s.proceed status
  | .leaveFunction arguments index place =>
    .script ({ Task.restored s (s.locals.headD []) with arguments, index, place, locals := s.locals.tail })
  | .leaveText name _ => .script { s with within := name }

/-! ## Scripts -/

/-- The frames with waits for jobs at the front taken away. -/
def withoutWaits : List Frame → List Frame
  | .await .. :: rest => withoutWaits rest
  | frames => frames

/-- All jobs with some numbers have ended. -/
def State.areDone (s : State) (numbers : List Nat) : Bool :=
  numbers.all fun n => (s.jobs.find? (·.number == n)).all BackgroundJob.isDone

/-- The status of the last of some jobs. -/
def State.statusOf (s : State) (numbers : List Nat) : Nat :=
  ((numbers.getLast?.bind fun n => s.jobs.find? (·.number == n)).bind fun j => j.end?.map ChildEnd.status).getD s.status

/-- The script when signals have arrived: the actions of the ones with a trap are next, in the order of their numbers. A wait that
is interrupted ends with 128 and the number of the signal; the end of the last child that is waited for interrupts nothing. -/
def arrive (s : State) (caught : List Nat) : State :=
  (caught.mergeSort (fun a b => b ≤ a)).foldl (fun s n =>
    match s.traps.lookup n with
    | none | some "" => s
    | some action =>
      let s := match s.frames with
        | .await numbers reports :: _ =>
          if n = Signal.chld.number && s.areDone numbers then
            { s with frames := withoutWaits s.frames, status := if reports then s.statusOf numbers else 0 }
          else { s with frames := withoutWaits s.frames, status := 128 + n }
        | _ => s
      (s.push (.resume s.status)).push (.read { rest := action.toList, aliases := s.aliases } none false)) s

/-- One step of a script to which these signals have come. -/
def step (caught : List Nat) (s : State) : Program :=
  let s := arrive s caught
  match s.frames with
  | f :: frames => runFrame { s with frames } f
  | [] =>
    match s.traps.lookup 0 with
    | some action =>
      .script { s with
        traps := s.traps.filter (·.1 != 0)
        frames := [.read { rest := action.toList, aliases := s.aliases } none false, .resume s.status] }
    | none => .exit (s.status % 256)

/-- The variables at the start of a script: a few of its own, and the ones of the environment that have a name. -/
def initialVariables (environment : Environment) (parent : Pid) : List Binding :=
  let own : List Binding := [
    { name := "IFS", value := some " \t\n" }, { name := "PATH", value := some defaultPath }, { name := "PS1", value := some "# " },
    { name := "PS2", value := some "> " }, { name := "PS4", value := some "+ " }, { name := "OPTIND", value := some "1" }]
  let add (vs : List Binding) (b : Binding) : List Binding :=
    if vs.any (·.name == b.name) then vs.map fun v => if v.name == b.name then b else v else vs ++ [b]
  let given : List Binding := (environment.filter fun v => isName v.1).map fun v =>
    { name := v.1, value := some (if v.1 == "IFS" then " \t\n" else v.2), exported := true }
  add (given.foldl add own) { name := "PPID", value := some (toString parent) }

/-- The script with its working directory, as a path that leads there. -/
def withDirectory (s : State) (fs : FileSystem) (cwd : Inode) (next : State → Program) : Program :=
  let place (path : String) : Program := next { exportVariable s "PWD" path with directory := path }
  match (s.get? "PWD").filter fun d => FileSystem.isAbsolute d && (fs.resolve cwd d true).toOption == some cwd with
  | some path => place path
  | none => physicalDirectory s place

/-- The script that reads its commands from its input. -/
def readingInput (s : State) (arguments : List String) (interactive : Bool) : Program :=
  let s := { s.withOption 's' true with arguments, frames := [.read { rest := [], isOpen := true } (some 0) false] }
  if interactive then
    .dispose [Signal.quit.number, Signal.term.number] .ignore (.script (s.withOption 'i' true))
  else .script s

/-- The script that `sh` runs: a text after `-c`, a file, or what it reads. -/
def start (call : Call) : Program :=
  .identify fun self parent => .ignored fun spared => .consult fun fs cwd => .inspect fun channel =>
    let s : State := { name := call.name, self, parent, spared, bindings := initialVariables call.environment parent }
    match Task.setOptions true s "" call.arguments with
    | .error text => .fail (s.message text) 2
    | .ok (s, printed, operands) =>
      let operands := operands.getD []
      let isTerminal (d : Descriptor) : Bool := channel d == some (.device .terminal)
      let warning := if s.has 'i' && !(isTerminal 0 || isTerminal 1 || isTerminal 2) then
          s.message "can't access tty; job control turned off" else ""
      .put printed fun _ => .complain warning (withDirectory s fs cwd fun s =>
        if s.has 'c' then
          match operands with
          | [] => .fail (s.message "-c requires an argument") 2
          | text :: rest =>
            .script { s.withOption 'c' false with
              name := rest.headD s.name, arguments := rest.tail
              frames := [.read { rest := text.toList } none false] }
        else match if s.has 's' then [] else operands with
          | [] =>
            readingInput s operands (s.has 'i' || (operands.isEmpty && isTerminal 0 && isTerminal 1))
          | file :: rest =>
            let begin (text : String) : Program :=
              .script { s with name := file, arguments := rest, frames := [.read { rest := text.toList } none false] }
            match fs.text cwd file with
            | .ok text => begin text
            | .error .isDirectory => begin ""
            | .error e => .fail (s.message ("cannot open " ++ file ++ ": " ++ openingFault false e)) 2)

end JobShell.Machine.Script
