import JobShell.Proofs.Sessions.Operations

/-!
# The signals of a command

What `kill` asks of the system is read off a journal that stands beside it (`System.signalling`). A `SignalRequest` says what arguments
are understood, and an `Attempt` all that can come of one target: what is asked, and what is said if the target fails. The attempts stand
in the order of the targets, and each is on the same job table, since none of them changes it (`kill_attempts_each`).
-/

namespace JobShell

open Act

variable {σ : Type}

/-- A signal that the system was asked to send, and the answer. -/
inductive SignalCall where
  | group (pgid : Pid) (signal : Signal) (answer : Except Errno Unit)
  | process (pid : Pid) (signal : Signal) (answer : Except Errno Unit)
  deriving DecidableEq

/-- The system with a journal of the signals it is asked to send. -/
def System.signalling (S : System σ) : System (σ × List SignalCall) :=
  { S.beside (List SignalCall) with
    signalGroup := fun pgid signal => System.noted (S.signalGroup pgid signal) fun answer calls => calls ++ [.group pgid signal answer]
    signalProcess := fun pid signal => System.noted (S.signalProcess pid signal) fun answer calls => calls ++ [.process pid signal answer] }

/-- The arguments ask for a signal to be sent to targets. The signal is named after `-s`, or by a word with a dash before it; if the first
argument is no such word, all arguments are targets. -/
inductive SignalRequest : List String → Signal → List String → Prop
  | named {name : String} {signal : Signal} {targets : List String} (parsed : Signal.parse? name = some signal) :
      SignalRequest ("-s" :: name :: targets) signal targets
  | dashed {name : String} {signal : Signal} {targets : List String} (parsed : Signal.parse? name = some signal) :
      SignalRequest (("-" ++ name) :: targets) signal targets
  | plain {targets : List String} (undashed : ∀ name, name ≠ "" → targets.head? ≠ some ("-" ++ name)) :
      SignalRequest targets .term targets

/-- The specification of a job is the number of one. -/
def IsJobNumber (spec : String) (id : JobId) : Prop := Numeral.word? spec = some id ∧ 0 < id

/-- The word is the id of a process. -/
def IsProcessNumber (word : String) (pid : Pid) : Prop := Numeral.int32? word = some pid ∧ 0 < pid

/-- What comes of one target: the signals sent, with the answers, and the message if the target fails. -/
structure Attempt where
  calls : List SignalCall := []
  failure : Option String := none

/-- What can come of a target, for a table of jobs and a signal. A stopped job is continued once it has been sent a signal that ends jobs,
and whatever the answer to that, the target does not fail. -/
inductive Attempt.Of (t : JobTable) (signal : Signal) : String → Attempt → Prop
  | sent {spec : String} {id : JobId} {j : Job} (number : IsJobNumber spec id) (found : t.find? id = some j)
      (alone : ¬(j.state = .stopped ∧ signal ∈ [.term, .hup, .int, .quit])) :
      Attempt.Of t signal ("%" ++ spec) { calls := [.group j.pgid signal (.ok ())] }
  | continued {spec : String} {id : JobId} {j : Job} (answer : Except Errno Unit) (number : IsJobNumber spec id)
      (found : t.find? id = some j) (stopped : j.state = .stopped) (ends : signal ∈ [.term, .hup, .int, .quit]) :
      Attempt.Of t signal ("%" ++ spec) { calls := [.group j.pgid signal (.ok ()), .group j.pgid .cont answer] }
  | refused {spec : String} {id : JobId} {j : Job} {e : Errno} (number : IsJobNumber spec id) (found : t.find? id = some j) :
      Attempt.Of t signal ("%" ++ spec)
        { calls := [.group j.pgid signal (.error e)], failure := some ("%" ++ toString id ++ ": " ++ e.message) }
  | unknown {spec : String} {id : JobId} (number : IsJobNumber spec id) (missing : t.find? id = none) :
      Attempt.Of t signal ("%" ++ spec) { failure := some ("job not found: %" ++ toString id) }
  | unspecific {spec : String} (unnumbered : ∀ id, ¬IsJobNumber spec id) :
      Attempt.Of t signal ("%" ++ spec) { failure := some ("%" ++ spec ++ ": invalid job specification") }
  | process {target : String} {pid : Pid} (unmarked : ∀ spec, target ≠ "%" ++ spec) (number : IsProcessNumber target pid) :
      Attempt.Of t signal target { calls := [.process pid signal (.ok ())] }
  | processRefused {target : String} {pid : Pid} {e : Errno} (unmarked : ∀ spec, target ≠ "%" ++ spec)
      (number : IsProcessNumber target pid) :
      Attempt.Of t signal target
        { calls := [.process pid signal (.error e)], failure := some ("(" ++ toString pid ++ "): " ++ e.message) }
  | other {target : String} (unmarked : ∀ spec, target ≠ "%" ++ spec) (unnumbered : ∀ pid, ¬IsProcessNumber target pid) :
      Attempt.Of t signal target { failure := some (target ++ ": arguments must be process or job IDs") }

namespace KillAux

/-! ### Arguments -/

section

variable {args targets targets' : List String} {name word : String} {signal : Signal}

/-- The letters of a word with a dash before it. -/
theorem toList_dash (name : String) : ("-" ++ name).toList = '-' :: name.toList := by simp

/-- A word that begins with a dash. -/
theorem eq_dash {cs : List Char} (h : word.toList = '-' :: cs) : word = "-" ++ String.ofList cs := by
  rw [← String.toList_inj, toList_dash, h, String.toList_ofList]

/-- The signal that a word names, with targets. -/
def readSignal (name : String) (targets : List String) : Except String (Signal × List String) :=
  match Signal.parse? name with
  | some signal => .ok (signal, targets)
  | none => .error name

theorem readSignal_eq_ok_iff :
    readSignal name targets = .ok (signal, targets') ↔ Signal.parse? name = some signal ∧ targets = targets' := by
  rw [readSignal]
  cases Signal.parse? name <;> simp

/-- The first argument decides by its letters. -/
theorem killOptions_cons (flag : String) (rest : List String) :
    killOptions (flag :: rest) = match flag.toList, rest with
      | ['-', 's'], name :: targets => readSignal name targets
      | '-' :: c :: cs, targets => readSignal (String.ofList (c :: cs)) targets
      | _, _ => .ok (.term, flag :: rest) := rfl

/-- The word after `-s` names the signal. -/
theorem killOptions_named (name : String) (targets : List String) : killOptions ("-s" :: name :: targets) = readSignal name targets :=
  rfl

/-- The word after another dash names the signal. -/
theorem killOptions_dashed (hn : name ≠ "") (hs : name = "s" → targets = []) :
    killOptions (("-" ++ name) :: targets) = readSignal name targets := by
  have letters : name.toList ≠ [] := fun h => hn (String.toList_inj.1 h)
  have back : String.ofList name.toList = name := String.ofList_toList
  rw [killOptions_cons, toList_dash]
  split
  next flag rest other targets hl =>
    -- Here the word is the option `-s` with a word after it.
    obtain rfl : name = "s" := by
      rw [← back, (List.cons.inj hl).2]
    cases hs rfl
  next hl _ => rw [← (List.cons.inj hl).2, back]
  next plain _ =>
    obtain ⟨c, cs, hcs⟩ := List.exists_cons_of_ne_nil letters
    exact absurd (congrArg _ hcs) (plain c cs)

/-- Without such a word all arguments are targets. -/
theorem killOptions_plain (undashed : ∀ name, name ≠ "" → targets.head? ≠ some ("-" ++ name)) :
    killOptions targets = .ok (.term, targets) := by
  cases targets with
  | nil => rfl
  | cons flag rest =>
    have unlike : ∀ c cs, flag.toList ≠ '-' :: c :: cs := fun c cs h =>
      undashed (String.ofList (c :: cs)) (fun none => List.cons_ne_nil c cs (String.ofList_eq_empty_iff.1 none)) (congrArg some (eq_dash h))
    rw [killOptions_cons]
    split
    next h => exact absurd h (unlike _ _)
    next h _ => exact absurd h (unlike _ _)
    next => rfl

/-- Neither nothing nor the letter of the option itself names a signal. -/
theorem parse?_ne (h : Signal.parse? name = some signal) : name ≠ "" ∧ name ≠ "s" := by
  constructor
  · rintro rfl
    have none : Signal.parse? "" = none := by decide +kernel
    rw [none] at h
    cases h
  · rintro rfl
    have none : Signal.parse? "s" = none := by decide +kernel
    rw [none] at h
    cases h

/-- What `kill` understands of its arguments is what they ask for. -/
theorem killOptions_eq_ok_iff : killOptions args = .ok (signal, targets) ↔ SignalRequest args signal targets := by
  constructor
  · intro h
    by_cases dashed : ∃ name, name ≠ "" ∧ args.head? = some ("-" ++ name)
    · obtain ⟨name, hn, first⟩ := dashed
      obtain ⟨rest, rfl⟩ := List.head?_eq_some_iff.1 first
      by_cases letter : name = "s" ∧ rest ≠ []
      · obtain ⟨rfl, hr⟩ := letter
        obtain ⟨word, others, rfl⟩ := List.exists_cons_of_ne_nil hr
        obtain ⟨parsed, rfl⟩ := readSignal_eq_ok_iff.1 ((killOptions_named word others).symm.trans h)
        exact .named parsed
      · have alone : name = "s" → rest = [] := fun hs => not_not.1 fun hr => letter ⟨hs, hr⟩
        obtain ⟨parsed, rfl⟩ := readSignal_eq_ok_iff.1 ((killOptions_dashed hn alone).symm.trans h)
        exact .dashed parsed
    · have undashed : ∀ name, name ≠ "" → args.head? ≠ some ("-" ++ name) := fun name hn first => dashed ⟨name, hn, first⟩
      rw [killOptions_plain undashed] at h
      obtain ⟨rfl, rfl⟩ := Prod.mk.inj (Except.ok.inj h)
      exact .plain undashed
  · intro h
    cases h with
    | named parsed =>
      rw [killOptions_named, readSignal_eq_ok_iff]
      exact ⟨parsed, rfl⟩
    | dashed parsed =>
      obtain ⟨hn, hs⟩ := parse?_ne parsed
      rw [killOptions_dashed hn fun h => absurd h hs, readSignal_eq_ok_iff]
      exact ⟨parsed, rfl⟩
    | plain undashed => exact killOptions_plain undashed

end

/-! ### Targets -/

section

variable {spec target : String} {id : JobId} {pid : Pid}

theorem isJobNumber_iff : IsJobNumber spec id ↔ (Numeral.word? spec).filter (0 < ·) = some id := by
  rw [Option.filter_eq_some_iff, decide_eq_true_iff]
  rfl

theorem isProcessNumber_iff : IsProcessNumber target pid ↔ (Numeral.int32? target).filter (0 < ·) = some pid := by
  rw [Option.filter_eq_some_iff, decide_eq_true_iff]
  rfl

/-- A target with the mark of a job is read as the number of one. -/
theorem parse_marked (spec : String) :
    KillTarget.parse ("%" ++ spec) = match (Numeral.word? spec).filter (0 < ·) with
      | some id => .job id
      | none => .invalid ("%" ++ spec ++ ": invalid job specification") := by
  have letters : ("%" ++ spec).toList = '%' :: spec.toList := by simp
  have marked : ("%" ++ spec).startsWith "%" = true := by
    rw [String.startsWith_string_iff, letters]
    exact ⟨spec.toList, rfl⟩
  have number : jobSpec? ("%" ++ spec) = (Numeral.word? spec).filter (0 < ·) := by
    rw [jobSpec?, letters]
    exact congrArg (fun text => (Numeral.word? text).filter (0 < ·)) String.ofList_toList
  rw [← number]
  exact if_pos marked

/-- A target without it is read as the id of a process. -/
theorem parse_unmarked (unmarked : ∀ spec, target ≠ "%" ++ spec) :
    KillTarget.parse target = match (Numeral.int32? target).filter (0 < ·) with
      | some pid => .process pid
      | none => .invalid (target ++ ": arguments must be process or job IDs") := by
  have unstarted : ¬target.startsWith "%" = true := by
    rw [String.startsWith_string_iff]
    rintro ⟨rest, hr⟩
    refine unmarked (String.ofList rest) (String.toList_inj.1 (hr.symm.trans ?_))
    rw [String.toList_append, String.toList_ofList (l := rest)]
  exact if_neg unstarted

/-- A target names a job by its number, a process by its id, or neither. -/
theorem target_cases (target : String) :
    (∃ spec id, target = "%" ++ spec ∧ IsJobNumber spec id ∧ KillTarget.parse target = .job id) ∨
    (∃ pid, (∀ spec, target ≠ "%" ++ spec) ∧ IsProcessNumber target pid ∧ KillTarget.parse target = .process pid) ∨
    (∃ message, KillTarget.parse target = .invalid message ∧ ∀ t signal, Attempt.Of t signal target { failure := some message }) := by
  by_cases marked : ∃ spec, target = "%" ++ spec
  · obtain ⟨spec, rfl⟩ := marked
    rw [parse_marked]
    cases hn : (Numeral.word? spec).filter (0 < ·) with
    | some id => exact .inl ⟨spec, id, rfl, isJobNumber_iff.2 hn, rfl⟩
    | none =>
      refine .inr (.inr ⟨_, rfl, fun t signal => .unspecific fun id h => ?_⟩)
      cases hn.symm.trans (isJobNumber_iff.1 h)
  · have unmarked : ∀ spec, target ≠ "%" ++ spec := fun spec h => marked ⟨spec, h⟩
    rw [parse_unmarked unmarked]
    cases hn : (Numeral.int32? target).filter (0 < ·) with
    | some pid => exact .inr (.inl ⟨pid, unmarked, isProcessNumber_iff.2 hn, rfl⟩)
    | none =>
      refine .inr (.inr ⟨_, rfl, fun t signal => .other unmarked fun pid h => ?_⟩)
      cases hn.symm.trans (isProcessNumber_iff.1 h)

end

/-! ### Attempts -/

variable {signal : Signal} {target : String}

/-- The session after signals have been sent: the system has moved on, and they are in its journal. -/
def signalled (w : σ) (calls : List SignalCall) (s : Session (σ × List SignalCall)) : Session (σ × List SignalCall) :=
  { s with world := (w, s.world.2 ++ calls) }

theorem signalled_signalled (w w' : σ) (calls calls' : List SignalCall) (s : Session (σ × List SignalCall)) :
    signalled w' calls' (signalled w calls s) = signalled w' (calls ++ calls') s := by
  simp only [signalled, List.append_assoc]

/-- A signal for a group is sent, and the answer is noted. -/
theorem ask_signalGroup (S : System σ) (pgid : Pid) (signal : Signal) (s : Session (σ × List SignalCall)) :
    ∃ answer w, ask (S.signalling.signalGroup pgid signal) s = (answer, signalled w [.group pgid signal answer] s) :=
  ⟨_, _, rfl⟩

/-- A signal for a process is sent, and the answer is noted. -/
theorem ask_signalProcess (S : System σ) (pid : Pid) (signal : Signal) (s : Session (σ × List SignalCall)) :
    ∃ answer w, ask (S.signalling.signalProcess pid signal) s = (answer, signalled w [.process pid signal answer] s) :=
  ⟨_, _, rfl⟩

theorem endsJob_iff : signal.endsJob = true ↔ signal ∈ [Signal.term, .hup, .int, .quit] := by
  cases signal <;> decide

/-- Where no signal has been sent, the session is as it was. -/
theorem signalled_nil (s : Session (σ × List SignalCall)) : signalled s.world.1 [] s = s := by
  rw [signalled, List.append_nil]

/-- What is said of an operation on a job. -/
def jobFailure? : Except JobError Unit → Option String
  | .ok _ => none
  | .error e => some e.message

/-- What comes of a signal for a job is one of the attempts there can be. -/
theorem killJob_attempt (S : System σ) (signal : Signal) {spec : String} {id : JobId} (number : IsJobNumber spec id)
    (s : Session (σ × List SignalCall)) :
    ∃ answer calls w, killJob S.signalling id signal s = (answer, signalled w calls s) ∧
      Attempt.Of s.table signal ("%" ++ spec) { calls, failure := jobFailure? answer } := by
  rw [killJob, bind_apply, get_apply]
  dsimp only
  cases found : s.table.find? id with
  | none => exact ⟨.error (.notFound id), [], s.world.1, Prod.ext rfl (signalled_nil s).symm, .unknown number found⟩
  | some j =>
    dsimp only
    obtain ⟨answer, w, asked⟩ := ask_signalGroup S j.pgid signal s
    rw [bind_apply, asked]
    cases answer with
    | error e => exact ⟨_, _, w, rfl, .refused number found⟩
    | ok =>
      dsimp only
      split
      next again =>
        -- The answer to the second signal is noted and has no part in what is said of the target.
        obtain ⟨stopped, ends⟩ := Bool.and_eq_true_iff.1 again
        obtain ⟨answer, w', asked⟩ := ask_signalGroup S j.pgid .cont (signalled w [.group j.pgid signal (.ok ())] s)
        rw [bind_apply, asked, signalled_signalled]
        exact ⟨_, _, w', rfl, .continued answer number found (of_decide_eq_true stopped) (endsJob_iff.1 ends)⟩
      next once =>
        refine ⟨_, _, w, rfl, .sent number found fun both => once ?_⟩
        rw [Bool.and_eq_true_iff]
        exact ⟨decide_eq_true both.1, endsJob_iff.2 both.2⟩

/-- What comes of a target is one of the attempts there can be. -/
theorem killTarget_attempt (S : System σ) (signal : Signal) (target : String) (s : Session (σ × List SignalCall)) :
    ∃ attempt w, Attempt.Of s.table signal target attempt ∧
      killTarget S.signalling signal target s = (attempt.failure, signalled w attempt.calls s) := by
  rw [killTarget]
  obtain ⟨spec, id, rfl, number, hp⟩ | ⟨pid, unmarked, number, hp⟩ | ⟨message, hp, attempted⟩ := target_cases target
  · obtain ⟨answer, calls, w, killed, attempted⟩ := killJob_attempt S signal number s
    rw [hp]
    dsimp only
    rw [bind_apply, killed]
    refine ⟨_, w, attempted, ?_⟩
    cases answer <;> rfl
  · obtain ⟨answer, w, asked⟩ := ask_signalProcess S pid signal s
    rw [hp]
    dsimp only
    rw [bind_apply, asked]
    cases answer with
    | error e => exact ⟨_, w, .processRefused unmarked number, rfl⟩
    | ok => exact ⟨_, w, .process unmarked number, rfl⟩
  · rw [hp]
    exact ⟨_, s.world.1, attempted s.table signal, Prod.ext rfl (signalled_nil s).symm⟩

/-- The targets are attempted one after the other, whatever comes of them. -/
theorem killTargets_attempts (S : System σ) (signal : Signal) (targets : List String) (s : Session (σ × List SignalCall)) :
    ∃ attempts w, List.Forall₂ (Attempt.Of s.table signal) targets attempts ∧
      killTargets S.signalling signal targets s = (attempts.filterMap (·.failure), signalled w (attempts.flatMap (·.calls)) s) := by
  induction targets generalizing s with
  | nil =>
    refine ⟨[], s.world.1, .nil, ?_⟩
    rw [List.flatMap_nil, signalled_nil]
    rfl
  | cons target rest ih =>
    obtain ⟨attempt, w, here, first⟩ := killTarget_attempt S signal target s
    obtain ⟨attempts, w', there, others⟩ := ih (signalled w attempt.calls s)
    refine ⟨attempt :: attempts, w', .cons here there, ?_⟩
    rw [killTargets, bind_apply, first, bind_apply, others, signalled_signalled, List.flatMap_cons, List.filterMap_cons]
    cases attempt.failure <;> rfl

/-! ### The command -/

variable {args targets : List String}

/-- Arguments that ask for a signal have their targets attempted, and the answer tells of the ones that fail. -/
theorem kill_of_request (S : System σ) (request : SignalRequest args signal targets) (some_target : targets ≠ [])
    (s : Session (σ × List SignalCall)) :
    ∃ attempts w, List.Forall₂ (Attempt.Of s.table signal) targets attempts ∧
      kill S.signalling args s = (.ofErrors ((attempts.filterMap (·.failure)).map ("kill: " ++ ·)),
        signalled w (attempts.flatMap (·.calls)) s) := by
  obtain ⟨attempts, w, attempted, ran⟩ := killTargets_attempts S signal targets s
  refine ⟨attempts, w, attempted, ?_⟩
  obtain ⟨target, rest, rfl⟩ := List.exists_cons_of_ne_nil some_target
  rw [kill, killOptions_eq_ok_iff.2 request]
  dsimp only
  rw [bind_apply, ran]
  rfl

/-- Any other arguments are refused. -/
theorem kill_of_no_request (S : System σ) (none : ∀ signal targets, SignalRequest args signal targets → targets = [])
    (s : Session (σ × List SignalCall)) : ∃ message, kill S.signalling args s = (.failure 1 message, s) := by
  rw [kill]
  cases ho : killOptions args with
  | error name => exact ⟨_, rfl⟩
  | ok parsed =>
    obtain ⟨signal, targets⟩ := parsed
    obtain rfl := none signal targets (killOptions_eq_ok_iff.1 ho)
    exact ⟨_, rfl⟩

end KillAux

open KillAux

/-- `kill` does what it can for each target. If its arguments ask for a signal to be sent to one target or more, each is attempted once and
in order, whatever came of the ones before. Each attempt that fails is reported on a line of its own and in the same order, the status tells
whether there was one, and apart from the signals nothing has changed. If the arguments do not, no signal is sent at all. -/
theorem kill_attempts_each (S : System σ) (args : List String) (s : Session (σ × List SignalCall)) :
    let r := kill S.signalling args s
    (∀ signal targets, SignalRequest args signal targets → targets ≠ [] →
      ∃ attempts : List Attempt, List.Forall₂ (Attempt.Of s.table signal) targets attempts ∧
        let failures := attempts.filterMap (·.failure)
        r.1.out = "" ∧ r.1.err = "\n".intercalate (failures.map ("kill: " ++ ·)) ∧ r.1.code = (if failures = [] then 0 else 1) ∧
        r.2 = { s with world := (r.2.world.1, s.world.2 ++ attempts.flatMap (·.calls)) }) ∧
    ((∀ signal targets, SignalRequest args signal targets → targets = []) → r.1.code = 1 ∧ r.2 = s) := by
  intro r
  refine ⟨fun signal targets request some_target => ?_, fun none => ?_⟩
  · obtain ⟨attempts, w, attempted, ran⟩ := kill_of_request S request some_target s
    refine ⟨attempts, attempted, ?_⟩
    rw [show r = _ from ran]
    cases attempts.filterMap (·.failure) <;> exact ⟨rfl, rfl, rfl, rfl⟩
  · obtain ⟨message, refused⟩ := kill_of_no_request S none s
    rw [show r = _ from refused]
    exact ⟨rfl, rfl⟩

/-- A system on which nothing happens but that signals are answered from a list, and with success after its end. -/
def System.answering : System (Unit × List (Except Errno Unit)) :=
  { System.idle.beside (List (Except Errno Unit)) with
    signalGroup := fun _ _ w => (w.2.headD (.ok ()), (w.1, w.2.tail))
    signalProcess := fun _ _ w => (w.2.headD (.ok ()), (w.1, w.2.tail)) }

/-- A stopped job is sent a signal and continued, and that this fails is no failure of the target. A job that is not there, a process that
is not there and a word are. -/
theorem kill_attempts_each_of_four :
    let j : Job := { id := 1, pgid := 50, command := "sleep 9", state := .stopped, background := true, live := 1 }
    let s : Session ((Unit × List (Except Errno Unit)) × List SignalCall) :=
      { world := (((), [.ok (), .error .noProcess, .error .noProcess]), []), table := { lastId := 1, jobs := [j] } }
    let targets := ["%1", "%7", "12", "x"]
    let r := kill System.answering.signalling ("-hup" :: targets) s
    SignalRequest ("-hup" :: targets) .hup targets ∧ targets ≠ [] ∧
      (∃ attempts, List.Forall₂ (Attempt.Of s.table .hup) targets attempts ∧ attempts.flatMap (·.calls) =
        [.group 50 .hup (.ok ()), .group 50 .cont (.error .noProcess), .process 12 .hup (.error .noProcess)]) ∧
      r.1 = .failure 1 ("kill: job not found: %7\nkill: (12): ESRCH: No such process\n" ++
        "kill: x: arguments must be process or job IDs") ∧ r.2.table = s.table := by
  intro j s targets r
  have parsed : Signal.parse? "hup" = some .hup := by decide +kernel
  have request : SignalRequest ("-hup" :: targets) .hup targets := .dashed parsed
  have answered : r.1 = .failure 1 ("kill: job not found: %7\nkill: (12): ESRCH: No such process\n" ++
      "kill: x: arguments must be process or job IDs") := by decide +kernel
  have sent : r.2.world.2 =
      [.group 50 .hup (.ok ()), .group 50 .cont (.error .noProcess), .process 12 .hup (.error .noProcess)] := by decide +kernel
  obtain ⟨attempts, attempted, -, -, -, unchanged⟩ :=
    (kill_attempts_each System.answering ("-hup" :: targets) s).1 .hup targets request (List.cons_ne_nil _ _)
  refine ⟨request, List.cons_ne_nil _ _, ⟨attempts, attempted, ?_⟩, answered, ?_⟩
  · rw [← sent]
    exact (congrArg (·.world.2) unchanged).symm
  · exact congrArg (·.table) unchanged

end JobShell
