import JobShell.CommandLine
import JobShell.Proofs.Lines.Basic
import JobShell.Proofs.Sessions.Standing
import JobShell.Proofs.Sessions.Statuses

/-!
# The interactive loop from its first line to its last

The loop is a `Dialogue`: it asks for a line, runs it, and goes on unless the line was a farewell, that is, a single stage with the
program `exit`. Which lines are run depends on nothing but the lines: they are the ones up to the first farewell, whatever the system
answers (`converse_dictated`). A line with nothing to run, blank or not, is passed over (`passedOver_of_isEmpty`), so the status that
remains is the one of the last line with something to run (`Dialogue.lastStatus_eq`), and the shell ends with it (`loop_ends`).
-/

namespace JobShell

open Act

variable {σ : Type} {S : System σ} {R : Session σ → Session σ → Prop} {c : Settings}

/-- The line asks to leave: it is a single stage with the program `exit`, for the background or not. -/
def isFarewell (line : String) : Bool := (Pipeline.ofLine line).single?.any (·.program == "exit")

/-- The lines up to the first farewell, and with it. -/
def upToFarewell : List String → List String
  | [] => []
  | line :: rest => if isFarewell line then [line] else line :: upToFarewell rest

/-- The lines that are heard before the input ends or cannot be read; an interruption is none. -/
def heard : List LineRead → List String
  | .line text :: rest => entered text :: heard rest
  | .interrupted :: rest => heard rest
  | _ => []

/-- The system on which these lines are read, and then the input ends. -/
def System.dictated (S : System σ) : System (σ × List LineRead) :=
  { S.beside (List LineRead) with readLine := fun w => (w.2.headD .ended, ((S.readLine w.1).2, w.2.tail)) }

/-- Asks for a line, with the prompt where there is one. -/
def Act.nextLine (S : System σ) : Act σ Entry := do
  if (← look S.promptsForLines) then write S .out (← prompt S)
  nextEntry S S.patience

/-- A line that the loop ran, and its status. -/
structure Exchange where
  line : String
  status : Int
  deriving DecidableEq, Repr

/-- The exchanges of a loop that leads from one session to another. It ends when there are no more lines, when one cannot be read, or
after one that asked to leave. -/
inductive Dialogue (S : System σ) (c : Settings) : Session σ → List Exchange → Session σ → Prop
  | ended {s t : Session σ} : nextLine S s = (.ended, t) → Dialogue S c s [] (write S .out "\n" t).2
  | unreadable {s t : Session σ} {reason : String} :
    nextLine S s = (.unreadable reason, t) → Dialogue S c s [] (write S .err ("Error: " ++ reason ++ "\n") t).2
  | left {s t u : Session σ} {line : String} {status : Int} :
    nextLine S s = (.line line, t) → processLine S c line t = (status, u) → u.exiting = true → Dialogue S c s [⟨line, status⟩] u
  | next {s t u v : Session σ} {line : String} {status : Int} {exchanges : List Exchange} :
    nextLine S s = (.line line, t) → processLine S c line t = (status, u) → u.exiting = false → Dialogue S c u exchanges v →
      Dialogue S c s (⟨line, status⟩ :: exchanges) v

/-- The statuses of the lines with something to run. -/
def told (exchanges : List Exchange) : List Int :=
  (exchanges.filter fun e => !(Pipeline.ofLine e.line).isEmpty).map Exchange.status

/-- There is no pass of the collector that is due. -/
def Session.AtRest (S : System σ) (s : Session σ) : Prop := ∀ k, s.collector = some k → S.now s.world < k.due

/-- The line is passed over. A blank one changes nothing and has the status before it; any other is remembered and has the status 0, and
if a pass of the collector is due it is made. -/
structure PassedOver (S : System σ) (c : Settings) (line : String) (s : Session σ) : Prop where
  blank : isBlankLine line = true → processLine S c line s = (s.lastStatus, s)
  unblank : isBlankLine line = false →
    processLine S c line s = (0, (serveCollector S { s with history := rememberLine c.historyLimit s.history line }).2)
  lastStatus : (processLine S c line s).2.lastStatus = s.lastStatus
  exiting : (processLine S c line s).2.exiting = s.exiting
  table : s.AtRest S → (processLine S c line s).2.table = s.table

/-- A line without backspaces that does not end with the end of a line is heard as it is. -/
theorem entered_of_plain {line : String} (hb : '\x08' ∉ line.toList) (he : line.toList.getLast? ≠ some '\n') : entered line = line := by
  have last : line.toList.reverse.head? ≠ some '\n' := List.head?_reverse ▸ he
  have kept : applyBackspaces line.toList = line.toList := if_neg (by simpa using hb)
  rw [entered]
  split
  · rename_i hr
    exact absurd (congrArg List.head? hr) last
  · rename_i hr
    exact absurd (congrArg List.head? hr) last
  · rw [kept, String.ofList_toList]

/-- Lines without backspaces that do not end with the end of a line are heard as they are. -/
theorem heard_of_plain {lines : List String} (h : ∀ line ∈ lines, '\x08' ∉ line.toList ∧ line.toList.getLast? ≠ some '\n') :
    heard (lines.map .line) = lines := by
  induction lines with
  | nil => rfl
  | cons line rest ih =>
    obtain ⟨hb, he⟩ := h line List.mem_cons_self
    rw [List.map_cons, heard, entered_of_plain hb he, ih fun l hl => h l (List.mem_cons_of_mem _ hl)]

namespace DialogueAux

/-! ### What is read -/

/-- A line that is blank has nothing to run. -/
theorem isEmpty_of_blank {line : String} (h : isBlankLine line = true) : (Pipeline.ofLine line).isEmpty = true := by
  have blanks : ∀ ch ∈ line.toList, isBlank ch = true := List.all_eq_true.1 h
  have nothing : Reading.scan line.toList = {} := Reading.readAll_blanks_of_nil ⟨rfl, rfl⟩ rfl blanks
  rw [Pipeline.ofLine, nothing]
  rfl

/-- A line with nothing to run is no farewell. -/
theorem isFarewell_of_isEmpty {line : String} (h : (Pipeline.ofLine line).isEmpty = true) : isFarewell line = false := by
  rw [isFarewell, Pipeline.single?, List.isEmpty_iff.1 h]
  rfl

/-! ### What a line does -/

variable {x : Executor} {p : Pipeline} {s : Session σ}

/-- The builtin that is called `exit` is found by that name alone. -/
theorem find?_exit (program : String) : (Builtin.find? Builtin.all program == some .exit) = (program == "exit") := by
  by_cases h : program = "exit"
  · subst h
    decide
  · have other : Builtin.find? Builtin.all program ≠ some .exit := by
      intro hf
      have named := List.find?_some hf
      exact h (eq_of_beq named).symm
    rw [beq_false_of_ne other, beq_false_of_ne h]

/-- The stage that is run in the shell itself is `exit` exactly if the only stage is. -/
theorem inShell?_exit (hx : x.builtins = Builtin.all) (p : Pipeline) :
    (x.inShell? p).any (fun stage => Builtin.find? x.builtins stage.program == some .exit) = p.single?.any (·.program == "exit") := by
  rw [Executor.inShell?, hx]
  cases p.single? with
  | none => rfl
  | some stage =>
    rw [Option.any_some, ← find?_exit]
    cases hf : Builtin.find? Builtin.all stage.program <;> simp [Option.filter, hf]

/-- The builtin `exit` ends the shell. -/
theorem exiting_runInShell {stage : Stage} (hx : Builtin.find? x.builtins stage.program = some .exit) (s : Session σ) :
    (runInShell S x stage s).2.exiting = true := by
  have frame := (standing_exiting S).jobFrame
  have said : Within (fun s s' : Session σ => s'.exiting = s.exiting) (do
      write S .out (exitResult stage.operands).out
      write S .err (exitResult stage.operands).errLine
      return (exitResult stage.operands).code : Act σ Int) :=
    frame.bind (frame.write _ _) fun _ => frame.bind (frame.write _ _) fun _ => frame.pure _
  have named : runNamed S x.builtins stage s = (exitResult stage.operands, { s with exiting := true }) := by
    rw [runNamed, hx]
    rfl
  rw [runInShell, bind_apply, named]
  exact said { s with exiting := true }

/-- A pipeline ends the shell exactly if its only stage is `exit`. -/
theorem exiting_execute (hx : x.builtins = Builtin.all) (p : Pipeline) (line : String) (s : Session σ) :
    (execute S x p line s).2.exiting = (s.exiting || p.single?.any (·.program == "exit")) := by
  rw [← inShell?_exit hx]
  cases hl : (x.inShell? p).any (fun stage => Builtin.find? x.builtins stage.program == some .exit) with
  | false =>
    rw [Bool.or_false]
    exact (standing_exiting S).execute x p line (fun _ _ => rfl) (fun hl' => absurd (hl.symm.trans hl') (by decide)) s
  | true =>
    obtain ⟨stage, hs, he⟩ := Option.any_eq_true _ _ |>.1 hl
    have left : (runInShell S x stage s).2.exiting = true := exiting_runInShell (eq_of_beq he) s
    rw [execute_of_inShell S line hs, bind_apply, Bool.or_true]
    generalize runInShell S x stage s = r at left ⊢
    exact left

/-- The status of a pipeline is noted, unless there was nothing to run. -/
theorem lastStatus_execute (x : Executor) (p : Pipeline) (line : String) (s : Session σ) :
    (execute S x p line s).2.lastStatus = if p.isEmpty then s.lastStatus else (execute S x p line s).1 := by
  cases hp : p.isEmpty with
  | true =>
    rw [execute, if_pos hp]
    rfl
  | false =>
    rw [execute, if_neg (by simp [hp]), if_neg (by decide)]
    cases p.single?.filter fun s => (Builtin.find? x.builtins s.program).isSome <;> rfl

/-- A line that is not blank is run, and then a pass of the collector is made if one is due. -/
theorem processLine_of_unblank {line : String} (h : isBlankLine line = false) (s : Session σ) :
    processLine S c line s = ((runLine S c line s).1, (serveCollector S (runLine S c line s).2).2) := by
  rw [processLine, if_neg (by simp [h])]
  rfl

/-- A blank line is not run. -/
theorem processLine_of_blank {line : String} (h : isBlankLine line = true) (s : Session σ) :
    processLine S c line s = (s.lastStatus, s) := by
  rw [processLine, if_pos h]
  rfl

/-- A line with nothing to run is remembered at most. -/
theorem runLine_of_isEmpty {line : String} (h : (Pipeline.ofLine line).isEmpty = true) (s : Session σ) :
    runLine S c line s = (0, { s with history := rememberLine c.historyLimit s.history line }) := by
  rw [runLine, bind_apply, modify_apply, execute, if_pos h]
  rfl

/-- A line ends the shell exactly if it is a farewell. -/
theorem exiting_processLine (line : String) (s : Session σ) :
    (processLine S c line s).2.exiting = (s.exiting || isFarewell line) := by
  cases h : isBlankLine line with
  | true => rw [processLine_of_blank h, isFarewell_of_isEmpty (isEmpty_of_blank h), Bool.or_false]
  | false =>
    rw [processLine_of_unblank h]
    exact ((standing_exiting S).jobFrame.serveCollector _).trans (exiting_execute rfl (Pipeline.ofLine line) line _)

/-- The status of a line is noted, unless there was nothing to run. -/
theorem lastStatus_processLine {line : String} {status : Int} {u : Session σ} (hp : processLine S c line s = (status, u)) :
    u.lastStatus = if (Pipeline.ofLine line).isEmpty then s.lastStatus else status := by
  cases h : isBlankLine line with
  | true =>
    rw [processLine_of_blank h] at hp
    cases hp
    rw [if_pos (isEmpty_of_blank h)]
  | false =>
    rw [processLine_of_unblank h] at hp
    cases hp
    exact ((standing_lastStatus S).jobFrame.serveCollector _).trans (lastStatus_execute c.executor (Pipeline.ofLine line) line _)

/-- A line has a status of eight bits, if the one before it had. -/
theorem octet_processLine (hS : S.ReportsOctets) (line : String) (hs : IsOctet s.lastStatus) :
    IsOctet (processLine S c line s).1 := by
  cases h : isBlankLine line with
  | true =>
    rw [processLine_of_blank h]
    exact hs
  | false =>
    rw [processLine_of_unblank h]
    exact octet_execute hS c.executor (Pipeline.ofLine line) line _

/-- Where no pass is due, none is made. -/
theorem serveCollector_of_atRest (h : s.AtRest S) : (serveCollector S s).2 = s := by
  cases hk : s.collector with
  | none => rw [serveCollector, bind_apply, get_apply, hk]; rfl
  | some k =>
    have early : ¬k.due ≤ S.now s.world := Nat.not_le.2 (h k hk)
    rw [serveCollector, bind_apply, get_apply, hk]
    dsimp only
    rw [bind_apply, if_neg (show ¬k.due ≤ (look S.now s).1 from early)]
    rfl

/-- To run a line stays within what stands, if to remember it does, to note its status, and to end the shell where it is a farewell. -/
theorem within_processLine (h : Standing S R) (line : String) (remembered : ∀ s history, R s { s with history })
    (noted : ∀ s lastStatus, R s { s with lastStatus }) (left : isFarewell line = true → ∀ s, R s { s with exiting := true }) :
    Within R (processLine S c line) := by
  intro s
  cases hb : isBlankLine line with
  | true =>
    rw [processLine_of_blank hb]
    exact h.jobFrame.refl s
  | false =>
    have executed : Within R (execute S c.executor (Pipeline.ofLine line) line) :=
      h.execute _ _ line noted fun hx => left ((inShell?_exit rfl _).symm.trans hx)
    rw [processLine_of_unblank hb]
    exact h.trans (h.trans (remembered s _) (executed _)) (h.jobFrame.serveCollector _)

/-! ### To ask for a line -/

/-- Before a line is read, there is at most the prompt. -/
theorem nextLine_eq (h : Standing S R) (s : Session σ) : ∃ t, R s t ∧ nextLine S s = nextEntry S S.patience t := by
  rw [nextLine, bind_apply]
  split
  · exact ⟨_, h.jobFrame.write .out (prompt S s).1 s, rfl⟩
  · exact ⟨s, h.jobFrame.refl s, rfl⟩

/-- To ask for a line stays within what stands, if to read one does. -/
theorem within_nextEntry (h : Standing S R) (read : Within R (ask S.readLine)) (patience : Nat) : Within R (nextEntry S patience) := by
  have frame := h.jobFrame
  induction patience with
  | zero => exact frame.pure _
  | succ patience ih =>
    refine frame.bind read fun r => ?_
    cases r with
    | interrupted => exact frame.bind frame.serveCollector fun _ => ih
    | _ => exact frame.pure _

/-- To ask for a line, with the prompt, stays within what stands, if to read one does. -/
theorem within_nextLine (h : Standing S R) (read : Within R (ask S.readLine)) : Within R (nextLine S) := by
  intro s
  obtain ⟨t, prompted, he⟩ := nextLine_eq h s
  rw [he]
  exact h.trans prompted (within_nextEntry h read _ t)

/-- To ask for a line does not change the status of the last one. -/
theorem lastStatus_nextLine {s t : Session σ} {entry : Entry} (h : nextLine S s = (entry, t)) : t.lastStatus = s.lastStatus := by
  have kept := within_nextLine (standing_lastStatus S) (fun _ => rfl) s
  rwa [h] at kept

/-- To ask for a line does not end the shell. -/
theorem exiting_nextLine {s t : Session σ} {entry : Entry} (h : nextLine S s = (entry, t)) : t.exiting = s.exiting := by
  have kept := within_nextLine (standing_exiting S) (fun _ => rfl) s
  rwa [h] at kept

/-- It stands which lines are still to be read. -/
theorem standing_readings (S : System σ) : Standing S.dictated fun s s' => s'.world.2 = s.world.2 where
  trans h h' := h'.trans h
  free _ _ _ _ _ := rfl
  served h := by
    cases h with
    | asked h => cases h <;> rfl
    | _ => rfl
  timed _ _ _ _ := rfl

/-- The answer is the first line that is heard of these, and the others are left; where none is, it is no line. -/
def Answers (readings : List LineRead) (r : Entry × Session (σ × List LineRead)) : Prop :=
  match heard readings with
  | [] => ∀ line, r.1 ≠ .line line
  | line :: rest => r.1 = .line line ∧ heard r.2.world.2 = rest ∧ r.2.world.2.length < readings.length

/-- An interruption is not heard. -/
theorem Answers.interrupted {readings : List LineRead} {r : Entry × Session (σ × List LineRead)} (h : Answers readings r) :
    Answers (.interrupted :: readings) r := by
  rw [Answers, heard]
  rw [Answers] at h
  split at h
  · exact h
  · exact ⟨h.1, h.2.1, Nat.lt_succ_of_lt h.2.2⟩

/-- To ask for a line answers with the first one that is heard. -/
theorem nextEntry_dictated {s : Session (σ × List LineRead)} {patience : Nat} (h : s.world.2.length < patience) :
    Answers s.world.2 (nextEntry S.dictated patience s) := by
  induction patience generalizing s with
  | zero => exact absurd h (Nat.not_lt_zero _)
  | succ patience ih =>
    have asked : ask S.dictated.readLine s =
      (s.world.2.headD .ended, { s with world := ((S.readLine s.world.1).2, s.world.2.tail) }) := rfl
    rw [nextEntry, bind_apply, asked]
    cases hr : s.world.2 with
    | nil => exact nofun
    | cons r rest =>
      cases r with
      | line text => exact ⟨rfl, rfl, Nat.lt_succ_self _⟩
      | interrupted =>
        have short : rest.length < patience := by
          rw [hr] at h
          exact Nat.lt_of_succ_lt_succ h
        have served : (serveCollector S.dictated { s with world := ((S.readLine s.world.1).2, rest) }).2.world.2 = rest :=
          (standing_readings S).jobFrame.serveCollector _
        have answered := ih (served ▸ short)
        rw [served] at answered
        exact answered.interrupted
      | unreadable => exact nofun
      | failed cause => exact nofun
      | ended => exact nofun

/-- To ask for a line, with the prompt, answers with the first one that is heard. -/
theorem nextLine_dictated {s : Session (σ × List LineRead)} (h : s.world.2.length < S.patience) :
    Answers s.world.2 (nextLine S.dictated s) := by
  obtain ⟨t, kept, he⟩ := nextLine_eq (standing_readings S) s
  rw [he, ← kept]
  exact nextEntry_dictated (kept ▸ h)

/-! ### The loop -/

/-- The loop asks for a line, runs it, and goes on unless it is to end. -/
theorem converse_succ (S : System σ) (c : Settings) (patience : Nat) :
    converse S c (patience + 1) = (do
      match ← nextLine S with
      | .ended =>
        write S .out "\n"
        return []
      | .unreadable reason =>
        write S .err ("Error: " ++ reason ++ "\n")
        return []
      | .line line =>
        let _ ← processLine S c line
        if (← get).exiting then return [line]
        return line :: (← converse S c patience)) := by
  funext s
  rw [converse, nextLine, bind_apply, bind_apply, bind_apply]
  by_cases hp : (look S.promptsForLines s).1 = true
  · rw [if_pos hp, if_pos hp]
    rfl
  · rw [if_neg hp, if_neg hp]
    rfl

/-- One more exchange counts if there was something to run. -/
theorem getLastD_told_cons (e : Exchange) (exchanges : List Exchange) (status : Int) :
    (told (e :: exchanges)).getLastD status =
      (told exchanges).getLastD (if (Pipeline.ofLine e.line).isEmpty then status else e.status) := by
  cases h : (Pipeline.ofLine e.line).isEmpty with
  | true => rw [told, List.filter_cons_of_neg (by simp [h]), told, if_pos rfl]
  | false => rw [told, List.filter_cons_of_pos (by simp [h]), List.map_cons, List.getLastD_cons, told, if_neg (by decide)]

/-- A loop in which the lines are read up to the first farewell, and the session at its end. -/
theorem converse_dictated {s : Session (σ × List LineRead)} {patience : Nat} (short : s.world.2.length < patience)
    (patient : s.world.2.length < S.patience) (he : s.exiting = false) :
    ∃ exchanges, Dialogue S.dictated c s exchanges (converse S.dictated c patience s).2 ∧
      exchanges.map Exchange.line = upToFarewell (heard s.world.2) := by
  induction patience generalizing s with
  | zero => exact absurd short (Nat.not_lt_zero _)
  | succ patience ih =>
    have answered := nextLine_dictated (S := S) patient
    rw [converse_succ, bind_apply]
    rw [Answers] at answered
    generalize hq : nextLine S.dictated s = q at answered ⊢
    obtain ⟨entry, t⟩ := q
    cases hh : heard s.world.2 with
    | nil =>
      rw [hh] at answered
      cases entry with
      | ended => exact ⟨[], .ended hq, rfl⟩
      | unreadable reason => exact ⟨[], .unreadable hq, rfl⟩
      | line line => exact absurd rfl (answered line)
    | cons line rest =>
      rw [hh] at answered
      obtain ⟨rfl, left_over, fewer⟩ := answered
      dsimp only
      rw [bind_apply, bind_apply, get_apply]
      generalize hp : processLine S.dictated c line t = r
      obtain ⟨status, u⟩ := r
      have leaves : u.exiting = isFarewell line := by
        have ends := exiting_processLine (S := S.dictated) (c := c) line t
        rwa [hp, exiting_nextLine hq, he, Bool.false_or] at ends
      have unread : u.world.2 = t.world.2 := by
        have kept := within_processLine (c := c) (standing_readings S) line (fun _ _ => rfl) (fun _ _ => rfl) (fun _ _ => rfl) t
        rwa [hp] at kept
      rw [upToFarewell, ← leaves]
      cases hu : u.exiting with
      | true =>
        rw [if_pos rfl, if_pos rfl]
        exact ⟨[⟨line, status⟩], .left hq hp hu, rfl⟩
      | false =>
        rw [if_neg (by decide), if_neg (by decide)]
        have shorter : u.world.2.length < s.world.2.length := unread ▸ fewer
        obtain ⟨exchanges, went_on, lines⟩ :=
          ih (Nat.lt_of_lt_of_le shorter (Nat.le_of_lt_succ short)) (Nat.lt_trans shorter patient) hu
        rw [unread, left_over] at lines
        exact ⟨⟨line, status⟩ :: exchanges, .next hq hp hu went_on, congrArg (line :: ·) lines⟩

/-- To start the shell stays within what stands, if what is special to it does: to set up signals and group, to take the terminal, and to
start the collector. -/
theorem within_start (h : Standing S R) (begun : Within R (ask S.beginInteractive)) (printing : ∀ s, R s { s with printsNotices := true })
    (timed : ∀ s collector, R s { s with collector }) : Within R (start S c) := by
  have frame := h.jobFrame
  have reclaimed : Within R (ask S.reclaimTerminal) := fun s => h.served (.reclaimTerminal s.world)
  have collecting : Within R (startCollector S (c.collectorPause * 1000)) :=
    frame.bind frame.collectPass fun _ => frame.bind (frame.look _) fun _ => frame.bind (fun s => timed s _) fun _ =>
      frame.tell fun w => .wakeAt _ w
  have prints : Within R (modify fun s => { s with printsNotices := true } : Act σ Unit) := printing
  have last : Within R (do
      modify fun s => { s with printsNotices := true }
      startCollector S (c.collectorPause * 1000)
      return .ok () : Act σ (Except StartError Unit)) :=
    frame.bind prints fun _ => frame.bind collecting fun _ => frame.pure _
  have going : Within R (do
      if c.jobControl then let _ ← ask S.reclaimTerminal
      modify fun s => { s with printsNotices := true }
      startCollector S (c.collectorPause * 1000)
      return .ok () : Act σ (Except StartError Unit)) := by
    split
    · exact frame.bind reclaimed fun _ => last
    · exact last
  rw [start]
  split
  · refine frame.bind begun fun r => ?_
    cases r with
    | error e => exact frame.pure _
    | ok => exact going
  · exact going

/-- To stop the collector leaves the status of the last line. -/
theorem lastStatus_stopCollector (s : Session σ) : (stopCollector S s).2.lastStatus = s.lastStatus :=
  (standing_lastStatus S).jobFrame.collectPass s

/-- After the last line nothing changes the status any more, and the shell ends with it. -/
theorem interact_ends (S : System σ) (c : Settings) (s : Session σ) :
    (interact S c s).1 = exitCode (interact S c s).2.lastStatus ∧
      (interact S c s).2.lastStatus = (converse S c S.patience s).2.lastStatus := by
  rw [interact]
  simp only [bind_apply, get_apply]
  split
  · exact ⟨rfl, lastStatus_stopCollector _⟩
  · exact ⟨rfl, lastStatus_stopCollector _⟩

end DialogueAux

open DialogueAux

namespace Dialogue

variable {s v : Session σ} {exchanges : List Exchange}

/-- In the end the status is the one of the last line with something to run, or the one before the loop if there was none. -/
theorem lastStatus_eq (h : Dialogue S c s exchanges v) : v.lastStatus = (told exchanges).getLastD s.lastStatus := by
  induction h with
  | ended ha => exact ((standing_lastStatus S).jobFrame.write _ _ _).trans (lastStatus_nextLine ha)
  | unreadable ha => exact ((standing_lastStatus S).jobFrame.write _ _ _).trans (lastStatus_nextLine ha)
  | left ha hp _ => rw [getLastD_told_cons, lastStatus_processLine hp, lastStatus_nextLine ha]; rfl
  | next ha hp _ _ ih => rw [getLastD_told_cons, ih, lastStatus_processLine hp, lastStatus_nextLine ha]

/-- In the end the status has eight bits, if the one before the loop had. -/
theorem octet (hS : S.ReportsOctets) (h : Dialogue S c s exchanges v) (hs : IsOctet s.lastStatus) : IsOctet v.lastStatus := by
  have asked : ∀ {s t : Session σ} {entry}, nextLine S s = (entry, t) → IsOctet s.lastStatus → IsOctet t.lastStatus :=
    fun ha hs => (lastStatus_nextLine ha).symm ▸ hs
  have ran : ∀ {t u : Session σ} {line status}, processLine S c line t = (status, u) → IsOctet t.lastStatus → IsOctet u.lastStatus := by
    intro t u line status hp ht
    have octet := octet_processLine (c := c) hS line ht
    rw [hp] at octet
    rw [lastStatus_processLine hp]
    split
    · exact ht
    · exact octet
  have written : ∀ stream text {t : Session σ}, IsOctet t.lastStatus → IsOctet (write S stream text t).2.lastStatus :=
    fun stream text t ht => ((standing_lastStatus S).jobFrame.write stream text t).symm ▸ ht
  induction h with
  | ended ha => exact written _ _ (asked ha hs)
  | unreadable ha => exact written _ _ (asked ha hs)
  | left ha hp _ => exact ran hp (asked ha hs)
  | next ha hp _ _ ih => exact ih (ran hp (asked ha hs))

end Dialogue

/-- A line with nothing to run is passed over. -/
theorem passedOver_of_isEmpty {line : String} (h : (Pipeline.ofLine line).isEmpty = true) (s : Session σ) : PassedOver S c line s where
  blank hb := processLine_of_blank hb s
  unblank hb := by rw [processLine_of_unblank hb, runLine_of_isEmpty h]
  lastStatus := (lastStatus_processLine rfl).trans (if_pos h)
  exiting := by rw [exiting_processLine, isFarewell_of_isEmpty h, Bool.or_false]
  table := by
    intro rest
    cases hb : isBlankLine line with
    | true => rw [processLine_of_blank hb]
    | false =>
      rw [processLine_of_unblank hb, runLine_of_isEmpty h, serveCollector_of_atRest]
      exact rest

/-- The interactive loop, on any system and with any lines, where there is patience for all of them. It runs the lines up to the first
farewell, each once and in order; in the end the status is the one of the last line with something to run, 0 if there was none, and the
shell ends with it, as the exit codes that the system reports have eight bits. A line with nothing to run is passed over. -/
theorem loop_ends {s s' : Session (σ × List LineRead)} (patient : s.world.2.length < S.patience)
    (fresh : s.lastStatus = 0) (staying : s.exiting = false)
    (started : start S.dictated (.forLoop (S.promptsForLines s.world.1)) s = (.ok (), s')) :
    let c := Settings.forLoop (S.promptsForLines s.world.1)
    let r := runCommandLine S.dictated [] s
    let t := (converse S.dictated c S.patience s').2
    (∃ exchanges, Dialogue S.dictated c s' exchanges t ∧ exchanges.map Exchange.line = upToFarewell (heard s.world.2) ∧
      t.lastStatus = (told exchanges).getLastD 0) ∧
    r.2.lastStatus = t.lastStatus ∧ r.1 = exitCode t.lastStatus ∧ (S.ReportsOctets → (r.1 : Int) = t.lastStatus) ∧
    ∀ (d : Settings) (line : String) (u : Session (σ × List LineRead)),
      isBlankLine line = true ∨ (Pipeline.ofLine line).isEmpty = true → PassedOver S.dictated d line u := by
  intro c r t
  have kept : s'.lastStatus = 0 ∧ s'.exiting = false ∧ s'.world.2 = s.world.2 := by
    have h₁ := within_start (c := c) (standing_lastStatus S.dictated) (fun _ => rfl) (fun _ => rfl) (fun _ _ => rfl) s
    have h₂ := within_start (c := c) (standing_exiting S.dictated) (fun _ => rfl) (fun _ => rfl) (fun _ _ => rfl) s
    have h₃ := within_start (c := c) (standing_readings S) (fun _ => rfl) (fun _ => rfl) (fun _ _ => rfl) s
    rw [started] at h₁ h₂ h₃
    exact ⟨h₁.trans fresh, h₂.trans staying, h₃⟩
  have ran : r = interact S.dictated c s' := by
    have looked : look S.dictated.promptsForLines s = (S.promptsForLines s.world.1, s) := rfl
    show runCommandLine S.dictated [] s = _
    simp only [runCommandLine, Invocation.ofArguments, bind_apply, looked, started]
    rfl
  obtain ⟨status, going, unread⟩ := kept
  obtain ⟨exchanges, dialogue, lines⟩ := converse_dictated (c := c) (unread ▸ patient) (unread ▸ patient) going
  obtain ⟨code, last⟩ := interact_ends S.dictated c s'
  have ends : r.1 = exitCode t.lastStatus := by rw [ran, code, last]; rfl
  refine ⟨⟨exchanges, dialogue, unread ▸ lines, status ▸ dialogue.lastStatus_eq⟩, ran ▸ last, ends, fun octets => ?_,
    fun d line u h => passedOver_of_isEmpty (h.elim isEmpty_of_blank id) u⟩
  have octet := dialogue.octet (fun pgid pid code w => octets pgid pid code w.1) (status ▸ by decide)
  rw [ends]
  exact exitCode_of_isOctet octet

/-- A system whose only process, whatever it is, ends with the status 7. -/
def System.sevens : System Unit :=
  { System.idle with patience := 9, fork := fun _ w => (.ok 2, w), await := fun _ w => (.ok (.exited 2 7), w) }

/-- The pipeline, the command and the farewell have something to run. -/
theorem loop_ends_with_farewell :
    let lines := ["exit | cat", "grep x", " ", "''", "exit 3 &", "echo"]
    let s : Session (Unit × List LineRead) := { world := ((), .interrupted :: lines.map .line) }
    let r := runCommandLine System.sevens.dictated [] s
    (∃ exchanges, exchanges.map Exchange.line = ["exit | cat", "grep x", " ", "''", "exit 3 &"] ∧
      r.2.lastStatus = (told exchanges).getLastD 0) ∧ (r.1 : Int) = r.2.lastStatus := by
  intro lines s
  have octets : System.sevens.ReportsOctets := by
    rintro pgid pid code w ⟨⟩
    decide
  let c := Settings.forLoop (System.sevens.promptsForLines s.world.1)
  have started : start System.sevens.dictated c s = (.ok (), (start System.sevens.dictated c s).2) := rfl
  have loop := loop_ends (S := System.sevens) (by decide) rfl rfl started
  generalize runCommandLine System.sevens.dictated [] s = r at loop ⊢
  obtain ⟨⟨exchanges, -, ran, status⟩, last, -, code, -⟩ := loop
  have heard_lines : heard s.world.2 = lines := heard_of_plain (by decide)
  have up_to : upToFarewell lines = ["exit | cat", "grep x", " ", "''", "exit 3 &"] := by decide +kernel
  rw [heard_lines, up_to] at ran
  exact ⟨⟨exchanges, ran, last.trans status⟩, (code octets).trans last.symm⟩

end JobShell
