import JobShell.Machine.ChildEnd
import JobShell.Machine.Decimal
import JobShell.Machine.Escapes
import JobShell.Machine.Script.SignalName
import JobShell.Machine.Tool.Input

/-!
# Tools that run and signal

A tool may become another program, after a change of its environment, of what it does about signals or of its session; it may run
another one for some time, or again and again with words from its input; it may send signals, and let time pass. Where a program
cannot be run, the status says whether it is missing.
-/

namespace JobShell.Machine.Tool

/-- The status of a tool whose own use was wrong, of one whose program cannot be run, and of one whose program is missing. -/
def misusedStatus : Nat := 125
def refusedStatus : Nat := 126
def missingStatus : Nat := 127

/-- The status for a program that cannot be run for some reason. -/
def startStatus (e : FileError) : Nat := if e = .notFound then missingStatus else refusedStatus

/-- Becomes the program that the first word names, with the others as its arguments. -/
def become (environment : Environment) (words : List String) (failed : FileError → Program) : Program :=
  match words with
  | [] => .exit 0
  | file :: arguments => .execute file true { name := file, arguments, environment } failed

/-! ## Environments -/

/-- The words of a text that stands for several, with quotes and backslashes. At most `fuel` octets are read; `quote` is the quote
that is open, and `held` what is read of a word, if one was begun. -/
def splitWords : (fuel : Nat) → (quote : Option Char) → (held : Option (List Char)) → List Char → List String
  | 0, _, _, _ => []
  | _, _, held, [] => (held.map fun cs => String.ofList cs.reverse).toList
  | fuel + 1, some q, held, c :: cs =>
    if c == q then splitWords fuel none held cs else splitWords fuel (some q) (some (c :: held.getD [])) cs
  | fuel + 1, none, held, c :: cs =>
    if c == '\'' || c == '"' then splitWords fuel (some c) (some (held.getD [])) cs
    else if c == ' ' || ('\t' ≤ c && c ≤ '\r') then
      (held.map fun cs => String.ofList cs.reverse).toList ++ splitWords fuel none none cs
    else match c, cs with
      | '\\', d :: rest => splitWords fuel none (some ((escapeLetter? d).getD d :: held.getD [])) rest
      | _, _ => splitWords fuel none (some (c :: held.getD [])) cs

/-- A word that sets a variable. -/
def assignment? (word : String) : Option (String × String) :=
  let cs := word.toList
  let name := cs.takeWhile (· != '=')
  if name.length < cs.length then some (String.ofList name, String.ofList (cs.drop (name.length + 1))) else none

/-- The options of `env`. -/
def envTable : OptionTable where
  letters := "iu:0C:S:v"
  names := [("ignore-environment", 'i', .flag), ("unset", 'u', .needed), ("null", '0', .flag), ("chdir", 'C', .needed),
    ("split-string", 'S', .needed), ("debug", 'v', .flag)]
  stops := true

/-- Prints the environment, or becomes a program in a changed one. -/
def env (call : Call) : Program :=
  let arguments := match call.arguments with
    | "-S" :: text :: rest => splitWords text.length none none text.toList ++ rest
    | first :: rest =>
      if first.startsWith "-S" then
        let text := first.toList.drop 2
        splitWords text.length none none text ++ rest
      else first :: rest
    | [] => []
  withOptions { call with arguments } envTable misusedStatus fun o =>
    let dashed := o.operands.head? == some "-"
    let words := if dashed then o.operands.tail else o.operands
    let removed := (o.given.filter (·.1 == 'u')).map (·.2)
    match removed.find? fun name => name.isEmpty || name.toList.contains '=' with
    | some name => refuse call ("cannot unset " ++ cited name ++ ": " ++ FileError.description .invalid) misusedStatus
    | none =>
      let start : Environment := if dashed || o.has 'i' then [] else
        removed.foldl (fun (e : Environment) name => e.remove name) call.environment
      let set := words.takeWhile fun w => (assignment? w).isSome
      let environment := (set.filterMap assignment?).foldl (fun (e : Environment) v => e.set v.1 v.2) start
      match words.drop set.length with
      | [] =>
        if o.has 'C' then misuse call "must specify command with --chdir (-C)" misusedStatus
        else if o.has '0' then .answer call.name (String.join (environment.map fun v => v.1 ++ "=" ++ v.2 ++ "\x00"))
        else .answer call.name environment.text
      | command :: rest =>
        let run : Program := become environment (command :: rest) fun e =>
          let hint := if e = .notFound && command.toList.contains ' ' then
            message call "use -[v]S to pass options in shebang lines" else ""
          .fail (message call (cited command ++ ": " ++ e.description) ++ hint) (startStatus e)
        if o.has '0' then misuse call "cannot specify --null (-0) with command" misusedStatus
        else match o.value? 'C' with
          | none => run
          | some dir => .enter dir fun
            | .ok () => run
            | .error e => refuse call ("cannot change directory to " ++ quoted dir ++ ": " ++ e.description) misusedStatus

/-- Prints variables of the environment. -/
def printenv (call : Call) : Program :=
  withOptions call { letters := "0", names := [("null", '0', .flag)], stops := true } 2 fun o =>
    let close := if o.has '0' then "\x00" else "\n"
    if o.operands.isEmpty then .answer call.name (String.join (call.environment.map fun v => v.1 ++ "=" ++ v.2 ++ close))
    else
      let values := o.operands.filterMap call.environment.get?
      .say call.name (String.join (values.map (· ++ close))) (.exit (if values.length = o.operands.length then 0 else 1))

/-! ## Time -/

/-- How many units of time a second has. -/
def second : Nat := 1000000

/-- A duration in millionths of a second, with a letter that multiplies it. Without an end it is as long as any. -/
def duration? (word : String) : Option Nat :=
  let cs := word.toList.dropWhile fun c => c == ' ' || ('\t' ≤ c && c ≤ '\r')
  let unit? : List Char → Option Nat
    | [] | ['s'] => some 1
    | ['m'] => some 60
    | ['h'] => some 3600
    | ['d'] => some 86400
    | _ => none
  match word.toLower with
  | "inf" | "infinity" => some (Nat.pow 2 62)
  | _ => (Decimal.read? cs).bind fun (x, rest) =>
    if x.negative && x.numerator != 0 then none
    else (unit? rest).map fun unit =>
      (x.numerator * second * unit + x.denominator - 1) / x.denominator

/-- Lets time pass. -/
def sleep (call : Call) : Program :=
  withOptions call {} 1 fun o =>
    match o.operands, o.operands.filter fun w => (duration? w).isNone with
    | [], _ => misuse call "missing operand" 1
    | words, [] => .sleep ((words.filterMap duration?).foldl (· + ·) 0) (.exit 0)
    | _, bad =>
      .fail (String.join (bad.map fun w => message call ("invalid time interval " ++ cited w)) ++ advice call) 1

/-- The number of the signal that a word names, with or without its first three letters. -/
def signalOf? (word : String) : Option Nat :=
  let upper := word.toUpper
  Script.signalNumber? 0 (if upper.startsWith "SIG" then String.ofList (upper.toList.drop 3) else upper)

/-- Ends as a child ended, or with some status if its time was over. -/
def endAs (how : ChildEnd) (expired : Option Nat) : Program :=
  match expired, how with
  | some status, _ => .exit status
  | none, .exited status => .exit status
  | none, .killed signal =>
    .dispose [signal] .default (.identify fun self _ => .signal self signal fun _ => .exit (128 + signal))

/-- Waits for a child until some time, then sends it a signal, and after some more time another one that ends it. -/
def superviseUntil (child : Pid) (signal : Nat) (time : Option Nat) (grace : Option Nat) (kept : Bool) : Program :=
  let gone (how : ChildEnd) : Program :=
    endAs how (if kept then none else some (if how == .killed Signal.kill.number then 128 + Signal.kill.number else 124))
  .awaitChild { pid := some child, deadline := time } fun
    | .ended _ how => endAs how none
    | .timedOut => .signal child signal fun _ => .signal child Signal.cont.number fun _ =>
      match grace with
      | none => .awaitChild { pid := some child } fun
        | .ended _ how => gone how
        | _ => .exit misusedStatus
      | some more => .clock fun now => .awaitChild { pid := some child, deadline := some (now + more) } fun
        | .ended _ how => gone how
        | _ => .signal child Signal.kill.number fun _ => .awaitChild { pid := some child } fun
          | .ended _ how => gone how
          | _ => .exit misusedStatus
    | _ => .exit misusedStatus

/-- Runs a program for some time. -/
def timeout (call : Call) : Program :=
  let table : OptionTable := {
    letters := "k:s:v", stops := true
    names := [("kill-after", 'k', .needed), ("signal", 's', .needed), ("foreground", 'f', .flag),
      ("preserve-status", 'p', .flag), ("verbose", 'v', .flag)] }
  withOptions call table misusedStatus fun o =>
    match o.operands, (o.value? 's').map fun w => (w, signalOf? w), (o.value? 'k').map fun w => (w, duration? w) with
    | _, _, some (w, none) => misuse call ("invalid time interval " ++ cited w) misusedStatus
    | _, some (w, none), _ => misuse call (cited w ++ ": invalid signal") misusedStatus
    | time :: command :: rest, signal, grace =>
      match duration? time with
      | none => misuse call ("invalid time interval " ++ cited time) misusedStatus
      | some 0 => run (command :: rest) fun child => superviseUntil child 15 none none false
      | some span =>
        let apart (next : Program) : Program :=
          if o.has 'f' then next else .identify fun self _ => .regroup (some (self, self)) next
        apart (run (command :: rest) fun child => .clock fun now =>
          superviseUntil child ((signal.bind (·.2)).getD Signal.term.number) (some (now + span)) (grace.bind (·.2)) (o.has 'p'))
    | _, _, _ => misuse call "missing operand" misusedStatus
where
  /-- Runs a program as a child. -/
  run (words : List String) (next : Pid → Program) : Program :=
    .fork (.dispose [Signal.ttin.number, Signal.ttou.number] .default (become call.environment words fun e =>
      refuse call ("failed to run command " ++ cited (words.headD "") ++ ": " ++ e.description) (startStatus e))) next

/-! ## Other ways to run a program -/

/-- Becomes a program after some preparation; without one, that is a wrong use. -/
def runPrepared (call : Call) (table : OptionTable) (prepare : Options → Program → Program) (alone : Options → Program) :
    Program :=
  withOptions call { table with stops := true } misusedStatus fun o =>
    match o.operands with
    | [] => alone o
    | words => prepare o (become call.environment words fun e =>
      refuse call ("failed to run command " ++ cited (words.headD "") ++ ": " ++ e.description) (startStatus e))

/-- Becomes a program that goes on when its terminal is gone. -/
def nohup (call : Call) : Program :=
  runPrepared call {} (fun _ next => .inspect fun channel =>
      let isTerminal (d : Descriptor) : Bool := channel d == some (.device .terminal)
      let reads (next : Program) : Program := if isTerminal 0 then
          .close 0 (.openFile (some 0) "/dev/null" .write fun _ => next)
        else next
      let writes (next : Program) : Program := if isTerminal 1 then
          .close 1 (.openFile (some 1) "nohup.out" .append fun _ => next)
        else next
      let said := if isTerminal 0 && isTerminal 1 then "ignoring input and appending output to 'nohup.out'"
        else if isTerminal 1 then "appending output to 'nohup.out'"
        else if isTerminal 0 then (if isTerminal 2 then "ignoring input and redirecting stderr to stdout" else "ignoring input")
        else if isTerminal 2 then "redirecting stderr to stdout" else ""
      .complain (if said.isEmpty then "" else message call said)
        (reads (writes (let next := if isTerminal 2 then .duplicate 1 2 fun _ => next else next
          .dispose [Signal.hup.number] .ignore next))))
    fun _ => misuse call "missing operand" misusedStatus

/-- Becomes a program that others go before. -/
def nice (call : Call) : Program :=
  runPrepared call { letters := "n:0123456789", names := [("adjustment", 'n', .needed)] } (fun _ next => next) fun o =>
    if o.has 'n' then misuse call "a command must be given with an adjustment" misusedStatus else .answer call.name "0\n"

/-- Becomes a program in a session of its own; the leader of a group leaves that to a child. -/
def setsid (call : Call) : Program :=
  let table : OptionTable := {
    letters := "cfw", names := [("ctty", 'c', .flag), ("fork", 'f', .flag), ("wait", 'w', .flag)], stops := true }
  withOptions call table 1 fun o =>
    match o.operands with
    | [] => misuse call "no command specified" 1
    | words =>
      let run : Program := .regroup none (become call.environment words fun e =>
        refuse call ("failed to execute " ++ words.headD "" ++ ": " ++ e.description) (startStatus e))
      .fork run fun child =>
        if o.has 'w' then .awaitChild { pid := some child } fun
          | .ended _ how => .exit how.status
          | _ => .exit 1
        else .exit 0

/-! ## Words from the input -/

/-- How words are handed on: how many at a time, the text that stands for one line, what parts them, and whether there is a run
without any. -/
structure Handing where
  most : Option Nat := none
  place : Option String := none
  delimiter : Option Char := none
  skipsEmpty : Bool := false
  traces : Bool := false

/-- The words of a text between blanks, with quotes and backslashes, or the quote that is not closed. -/
def wordsOf : (fuel : Nat) → (quote : Option Char) → (held : Option (List Char)) → List Char → Except Char (List String)
  | 0, _, _, _ => .ok []
  | _, some q, _, [] | _, some q, _, '\n' :: _ => .error q
  | _, none, held, [] => .ok (held.map fun cs => String.ofList cs.reverse).toList
  | fuel + 1, some q, held, c :: cs =>
    if c == q then wordsOf fuel none held cs else wordsOf fuel (some q) (some (c :: held.getD [])) cs
  | fuel + 1, none, held, c :: cs =>
    if c == '\'' || c == '"' then wordsOf fuel (some c) (some (held.getD [])) cs
    else if c == ' ' || c == '\t' || c == '\n' then
      (wordsOf fuel none none cs).map ((held.map fun cs => String.ofList cs.reverse).toList ++ ·)
    else match c, cs with
      | '\\', d :: rest => wordsOf fuel none (some (d :: held.getD [])) rest
      | _, _ => wordsOf fuel none (some (c :: held.getD [])) cs

/-- The lists of arguments for one run after the other. At most `fuel` lists are made. -/
def inPortions (size : Nat) : (fuel : Nat) → List String → List (List String)
  | 0, _ => []
  | _, [] => []
  | fuel + 1, words => words.take size :: inPortions size fuel (words.drop size)

/-- A text with all places of a word in it replaced. -/
def replaceIn (place text word : String) : String := if place.isEmpty then text else text.replace place word

/-- Runs a program with one list of arguments after the other; `status` is the highest one so far. -/
def runEach (call : Call) (h : Handing) (command : String) : List (List String) → (status : Nat) → Program
  | [], status => .exit status
  | arguments :: rest, status =>
    .complain (if h.traces then " ".intercalate (command :: arguments) ++ "\n" else "")
      (.fork (.openFile none "/dev/null" .read fun input =>
        let run : Program := .execute command true { name := command, arguments, environment := call.environment } fun e =>
          refuse call (command ++ ": " ++ e.description) (startStatus e)
        match input with
        | .ok d => .duplicate d 0 fun _ => .close d run
        | .error _ => run)
      fun child => .awaitChild { pid := some child } fun
        | .ended _ (.exited 255) => refuse call (command ++ ": exited with status 255; aborting") 124
        | .ended _ (.exited 127) => .exit 127
        | .ended _ (.exited 126) => .exit 126
        | .ended _ (.exited 0) => runEach call h command rest status
        | .ended _ (.exited _) => runEach call h command rest 123
        | .ended _ (.killed signal) =>
          refuse call (command ++ ": terminated by signal " ++ toString signal) 125
        | _ => .exit 1)

/-- Runs a program with words from its input. -/
def xargs (call : Call) : Program :=
  let table : OptionTable := {
    letters := "0I:L:n:d:rtpP:s:x", stops := true
    names := [("null", '0', .flag), ("replace", 'I', .optional), ("max-args", 'n', .needed), ("max-lines", 'L', .needed),
      ("delimiter", 'd', .needed), ("no-run-if-empty", 'r', .flag), ("verbose", 't', .flag)] }
  withOptions call table 1 fun o =>
    let number? (c : Char) : Option Nat := (o.value? c).bind fun w => Numeral.digits? w.toList
    let h : Handing := {
      most := number? 'n', place := o.value? 'I', skipsEmpty := o.has 'r', traces := o.has 't'
      delimiter := if o.has '0' then some '\x00' else (o.value? 'd').bind fun w => (unescape .tool w).1.head? }
    let command := o.operands.headD "echo"
    let fixed := o.operands.drop 1
    match o.value? 'n', number? 'n' with
    | some w, none => misuse call ("invalid number \"" ++ w ++ "\" for -n option") 1
    | some _, some 0 => misuse call "value 0 for -n option should be >= 1" 1
    | _, _ => .readAll 0 fun text _ =>
      let lines := (linesOf text).filter fun l => !l.toList.all fun c => c == ' ' || c == '\t'
      let words : Except Char (List String) := match h.delimiter, h.place with
        | some d, _ =>
          let parts := text.splitOn (String.singleton d)
          .ok (if parts.getLast? == some "" then parts.dropLast else parts)
        | none, some _ => .ok (lines.map fun l => String.ofList (l.toList.dropWhile fun c => c == ' ' || c == '\t'))
        | none, none => wordsOf (text.length + 1) none none text.toList
      match words with
      | .error q =>
        refuse call ("unmatched " ++ (if q == '"' then "double" else "single") ++
          " quote; by default quotes are special to xargs unless you use the -0 option") 1
      | .ok words =>
        let runs := match h.place with
          | some place => words.map fun w => fixed.map fun f => replaceIn place f w
          | none =>
            if words.isEmpty then (if h.skipsEmpty then [] else [fixed])
            else (inPortions (h.most.getD words.length) words.length words).map (fixed ++ ·)
        runEach call h command runs 0

/-! ## Signals and the terminal -/

/-- What is said of `kill` when it is used in a wrong way. -/
def killUsage : String :=
  "\nUsage:\n kill [options] <pid> [...]\n\nOptions:\n <pid> [...]            send signal to every <pid> listed\n" ++
  " -<signal>, -s, --signal <signal>\n                        specify the <signal> to be sent\n" ++
  " -q, --queue <value>    integer value to be sent with the signal\n" ++
  " -l, --list=[<signal>]  list all signal names, or convert one to a name\n" ++
  " -L, --table            list all signal names in a nice table\n\n" ++
  " -h, --help     display this help and exit\n -V, --version  output version information and exit\n\n" ++
  "For more details see kill(1).\n"

/-- The names of all signals, in lines that are not too long. -/
def signalLines : String :=
  let names := Signal.names.map fun s => if s.1 = .io then "POLL" else String.ofList (s.2.toList.drop 3)
  " ".intercalate (names.take 16) ++ "\n" ++ " ".intercalate (names.drop 16) ++ "\n"

/-- Sends signals to processes. -/
def kill (call : Call) : Program :=
  let misused (word : String) : Program :=
    .fail (message call ("invalid argument " ++ word) ++ killUsage) 1
  match call.arguments with
  | [] => .fail killUsage 1
  | "-l" :: [] | "--list" :: [] => .answer call.name signalLines
  | "-l" :: word :: _ =>
    if word.toList.all Char.isDigit then
      match (Numeral.digits? word.toList).bind fun n => Signal.ofNumber? (n % 128) with
      | some s => .answer call.name (String.ofList (s.name.toList.drop 3) ++ "\n")
      | none => refuse call ("unknown signal name " ++ word) 1
    else match signalOf? word with
      | some n => .answer call.name (toString n ++ "\n")
      | none => refuse call ("unknown signal name " ++ word) 1
  | "-s" :: [] | "--signal" :: [] => .fail killUsage 1
  | "-s" :: word :: pids | "--signal" :: word :: pids =>
    match signalOf? word with
    | some n => send n pids 0
    | none => .fail killUsage 1
  | "--" :: pids => send Signal.term.number pids 0
  | first :: pids =>
    match first.toList with
    | '-' :: c :: rest =>
      match signalOf? (String.ofList (c :: rest)) with
      | some n => send n (if pids.head? == some "--" then pids.tail else pids) 0
      | none => misused (if c == '-' then " " else String.singleton c)
    | _ => send Signal.term.number (first :: pids) 0
where
  /-- Sends a signal to one process after the other. -/
  send (signal : Nat) (pids : List String) (status : Nat) : Program :=
    if pids.isEmpty then .fail killUsage 1 else go signal pids status
  /-- Goes on with the next process. -/
  go (signal : Nat) : List String → (status : Nat) → Program
    | [], status => .exit status
    | word :: rest, status =>
      match Numeral.integer? (-(Nat.pow 2 31)) (Nat.pow 2 31 - 1) word with
      | none => refuse call ("failed to parse argument: '" ++ word ++ "'") 1
      | some pid => .signal pid signal fun
        | .ok () => go signal rest status
        | .error e =>
          let reason := if e = .noProcess then "No such process"
            else if e = .invalid then "Invalid argument" else "Operation not permitted"
          .complain (message call ("(" ++ toString pid ++ "): " ++ reason)) (go signal rest 1)

/-- Tells which terminal its input is. -/
def tty (call : Call) : Program :=
  withOptions call { letters := "s", names := [("silent", 's', .flag), ("quiet", 's', .flag)] } 2 fun o =>
    match o.operands with
    | extra :: _ => misuse call ("extra operand " ++ cited extra) 2
    | [] => .inspect fun channel =>
      let attached := channel 0 == some (.device .terminal)
      let status := if attached then 0 else 1
      if o.has 's' then .exit status
      else .say call.name (if attached then "/dev/pts/0\n" else "not a tty\n") (.exit status)

end JobShell.Machine.Tool
