import JobShell.Proofs.Lines.Separators
import JobShell.Proofs.Sessions.Dialogue

/-!
# Exit codes

Every line has a status of eight bits, whatever the table, the history and the children: the exit codes of children have no more, and a
signal with a name has a small number, while one without makes the wait fail (`System.reportsOctets_of_fates`). So the last status has
never more (`octet_runLines`), and the code that the shell ends with after a single command is its status (`runCommandLine_command`). For
`exit` with a number that fits into 64 bits the status is the number modulo 256 (`status_of_exit`), and every such number can be written:
its text is one word, and is read as the number again (`Numeral.int64?_toString`).
-/

namespace JobShell

open Act

variable {σ : Type} {S : System σ} {c : Settings}

/-- Runs lines one after the other; gives their statuses. -/
def Act.runLines (S : System σ) (c : Settings) : List String → Act σ (List Int)
  | [] => pure []
  | line :: rest => do
    let status ← runLine S c line
    return status :: (← runLines S c rest)

/-- What a child does that a wait in the foreground is told of. Signals are known by their numbers, those without a name as well. -/
inductive ChildFate where
  | exits (code : Fin 256)
  | killed (signal : Nat) (core : Bool)
  | stopped (signal : Nat)
  deriving DecidableEq, Repr

/-- What a wait is told of a child: a signal without a name makes the wait fail. -/
def ChildFate.report (pid : Pid) : ChildFate → WaitResult
  | .exits code => .ok (.exited pid code)
  | .killed n core =>
    match Signal.ofNumber? n with
    | some signal => .ok (.signaled pid signal core)
    | none => .error .invalid
  | .stopped n =>
    match Signal.ofNumber? n with
    | some signal => .ok (.stopped pid signal)
    | none => .error .invalid

/-- The exit codes that are told of what children do have eight bits. -/
theorem ChildFate.octet {fate : ChildFate} {pid pid' : Pid} {code : Int} (h : fate.report pid = .ok (.exited pid' code)) :
    IsOctet code := by
  cases fate with
  | exits code =>
    cases h
    exact ⟨by omega, by omega⟩
  | killed n core =>
    rw [report] at h
    split at h <;> cases h
  | stopped n =>
    rw [report] at h
    split at h <;> cases h

/-- A system where a wait fails or is told what a child does reports exit codes of eight bits. -/
theorem System.reportsOctets_of_fates
    (h : ∀ pgid w, (∃ e, (S.await pgid w).1 = .error e) ∨ ∃ pid fate, (S.await pgid w).1 = ChildFate.report pid fate) :
    S.ReportsOctets := by
  intro pgid pid code w hr
  rcases h pgid w with ⟨e, he⟩ | ⟨pid', fate, hf⟩
  · rw [he] at hr
    cases hr
  · exact ChildFate.octet (hf.symm.trans hr)

/-! ## Numerals of numbers -/

namespace Numeral

/-- The digits of a number are a numeral for it. -/
theorem digits?_toDigits (n : Nat) : digits? (Nat.toDigits 10 n) = some n := by
  have digits : (Nat.toDigits 10 n).all Char.isDigit = true :=
    List.all_eq_true.2 fun c hc => Nat.isDigit_of_mem_toDigits (by decide) (by decide) hc
  have value : (Nat.toDigits 10 n).foldl (fun n c => 10 * n + (c.toNat - '0'.toNat)) 0 = n := by
    rw [← Nat.ofDigitChars_eq_foldl, Nat.ofDigitChars_ten_toDigits]
  rw [digits?, value, if_pos]
  simp [digits, Nat.toDigits_ne_nil]

/-- The text of a number is its digits, with a minus sign before them where it is negative. -/
theorem toList_toString (n : Int) : (toString n).toList = (if n < 0 then ['-'] else []) ++ Nat.toDigits 10 n.natAbs := by
  cases n with
  | ofNat n =>
    have sign : ¬Int.ofNat n < 0 := Int.not_lt.2 (Int.natCast_nonneg n)
    rw [if_neg sign]
    exact Nat.toList_repr
  | negSucc n =>
    have text : toString (Int.negSucc n) = "-" ++ (n + 1).repr := rfl
    rw [if_pos (Int.negSucc_lt_zero n), text, String.toList_append, Nat.toList_repr]
    rfl

/-- A number between the bounds is read from its text. -/
theorem integer?_toString {low high n : Int} (hl : low ≤ n) (hh : n ≤ high) : integer? low high (toString n) = some n := by
  have bounds : (decide (low ≤ n) && decide (n ≤ high)) = true := by simp [hl, hh]
  have value := digits?_toDigits n.natAbs
  have chars := toList_toString n
  by_cases hn : n < 0
  · rw [if_pos hn] at chars
    have negative : -Int.ofNat n.natAbs = n := by
      rw [Int.ofNat_eq_natCast, Int.ofNat_natAbs_of_nonpos (Int.le_of_lt hn), Int.neg_neg]
    rw [integer?, chars]
    change Option.filter _ (Option.map _ (digits? (Nat.toDigits 10 n.natAbs))) = _
    rw [value, Option.map_some, negative, Option.filter_some, if_pos bounds]
  · rw [if_neg hn, List.nil_append] at chars
    obtain ⟨c, cs, hcs⟩ := List.exists_cons_of_ne_nil (Nat.toDigits_ne_nil (b := 10) (n := n.natAbs))
    have digit : c.isDigit = true := Nat.isDigit_of_mem_toDigits (b := 10) (n := n.natAbs) (by decide) (by decide) (by simp [hcs])
    have positive : Int.ofNat n.natAbs = n := Int.natAbs_of_nonneg (Int.not_lt.1 hn)
    rw [hcs] at chars value
    rw [integer?, chars]
    split
    · rename_i h
      cases h
      exact absurd digit (by decide)
    · rename_i h
      cases h
      exact absurd digit (by decide)
    · rw [value, Option.map_some, positive, Option.filter_some, if_pos bounds]

/-- A number of 64 bits is read from its text. -/
theorem int64?_toString {n : Int} (hl : -(Nat.pow 2 63) ≤ n) (hh : n < Nat.pow 2 63) : int64? (toString n) = some n :=
  integer?_toString hl (Int.le_sub_one_of_lt hh)

end Numeral

namespace ExitCodesAux

/-- A digit is a bare character. -/
theorem isBare_of_isDigit {c : Char} (h : c.isDigit = true) : isBare c = true := by
  have bounds : 48 ≤ c.toNat ∧ c.toNat ≤ 57 := by
    simpa [Char.isDigit, Char.le_def, UInt32.le_iff_toNat_le] using h
  have unblank : isBlank c = false := by
    simp only [isBlank, Bool.or_eq_false_iff, Bool.and_eq_false_iff, decide_eq_false_iff_not, beq_eq_false_iff_ne]
    omega
  have unmarked : ∀ d : Char, d.toNat < 48 ∨ 57 < d.toNat → c ≠ d := by
    rintro d hd rfl
    omega
  exact Reading.isBare_iff.2 ⟨unblank, unmarked _ (by decide), unmarked _ (by decide), unmarked _ (by decide), unmarked _ (by decide),
    unmarked _ (by decide)⟩

/-- The text of a number is not empty. -/
theorem toString_ne_empty (n : Int) : toString n ≠ "" := by
  intro h
  have chars := Numeral.toList_toString n
  rw [h] at chars
  exact Nat.toDigits_ne_nil (List.append_eq_nil_iff.1 chars.symm).2

/-- No character of the text of a number needs quotes. -/
theorem isBare_toString {n : Int} : ∀ c ∈ (toString n).toList, isBare c = true := by
  intro c hc
  rw [Numeral.toList_toString] at hc
  rcases List.mem_append.1 hc with sign | digit
  · obtain rfl : c = '-' := by
      split at sign
      · simpa using sign
      · cases sign
    decide
  · exact isBare_of_isDigit (Nat.isDigit_of_mem_toDigits (by decide) (by decide) digit)

/-! ### A program with one operand -/

variable {program arg : String}

/-- Two words that need no quotes, with a space between them, are a program and its operand. -/
theorem stages_of_two_words (hp : program ≠ "") (hpc : ∀ c ∈ program.toList, isBare c = true) (ha : arg ≠ "")
    (hac : ∀ c ∈ arg.toList, isBare c = true) : (Pipeline.ofLine (program ++ " " ++ arg)).stages = [⟨program, [arg]⟩] := by
  have plain : (Reading.scan program.toList).Plain :=
    Reading.plain_iff.2 ((Reading.mode_scan _).trans (Mode.roles_of_role rfl fun c hc => Mode.role_of_isBare (hpc c hc)).2)
  have joined : segments (program ++ " " ++ arg) = [[program, arg]] := by
    rw [SeparatorsAux.segments_append_blanks plain (by decide) (by decide), segments_of_bare hp hpc, segments_of_bare ha hac]
    rfl
  have arguments := arguments_ofLine (program ++ " " ++ arg)
  rw [joined] at arguments
  exact congrArg Pipeline.stages (Pipeline.eq_of_arguments (q := { stages := [⟨program, [arg]⟩], background := _ }) arguments rfl)

/-! ### Statuses of lines -/

variable {line : String} {s : Session σ}

/-- A line has a status of eight bits. -/
theorem octet_runLine (hS : S.ReportsOctets) (line : String) : Gives IsOctet (runLine S c line) :=
  gives_bind fun _ => octet_execute hS c.executor (Pipeline.ofLine line) line

/-- The status of a line is noted, unless there was nothing to run. -/
theorem lastStatus_runLine (line : String) (s : Session σ) :
    (runLine S c line s).2.lastStatus = if (Pipeline.ofLine line).isEmpty then s.lastStatus else (runLine S c line s).1 :=
  DialogueAux.lastStatus_execute c.executor (Pipeline.ofLine line) line _

/-- After a line the last status has eight bits, if it had them before. -/
theorem octet_lastStatus_runLine (hS : S.ReportsOctets) (line : String) (hs : IsOctet s.lastStatus) :
    IsOctet (runLine S c line s).2.lastStatus := by
  rw [lastStatus_runLine]
  split
  · exact hs
  · exact octet_runLine hS line s

/-- The last status never has more than eight bits, and no status has. -/
theorem octet_runLines (hS : S.ReportsOctets) (lines : List String) (hs : IsOctet s.lastStatus) :
    (∀ status ∈ (runLines S c lines s).1, IsOctet status) ∧ IsOctet (runLines S c lines s).2.lastStatus := by
  induction lines generalizing s with
  | nil => exact ⟨nofun, hs⟩
  | cons line rest ih =>
    obtain ⟨statuses, last⟩ := ih (octet_lastStatus_runLine hS line hs)
    exact ⟨List.forall_mem_cons.2 ⟨octet_runLine hS line s, statuses⟩, last⟩

/-- The status of `exit` with a number, whatever follows the number. -/
theorem status_of_exit {rest : List String} {n : Int} (hp : (Pipeline.ofLine line).stages = [⟨"exit", arg :: rest⟩])
    (hn : Numeral.int64? arg = some n) (s : Session σ) : (runLine S c line s).1 = n % 256 := by
  have alone : c.executor.inShell? (Pipeline.ofLine line) = some ⟨"exit", arg :: rest⟩ := by
    rw [Executor.inShell?, Pipeline.single?, hp]
    rfl
  have answered : ∀ t : Session σ, (runInShell S c.executor ⟨"exit", arg :: rest⟩ t).1 = n % 256 := by
    intro t
    have reduced : (exitResult (arg :: rest)).code = n % 256 := by
      rw [exitResult, hn]
      rfl
    rw [← reduced]
    rfl
  rw [runLine, bind_apply, modify_apply, execute_of_inShell S line alone, bind_apply]
  have said := answered { s with history := rememberLine c.historyLimit s.history line }
  generalize runInShell S c.executor ⟨"exit", arg :: rest⟩ _ = r at said ⊢
  exact said

/-- The code of a single command is the one of its status. -/
theorem runCommandLine_command {rest : List String} {s' : Session σ}
    (started : start S (.forCommand (S.promptsForLines s.world)) s = (.ok (), s')) :
    (runCommandLine S ("-c" :: line :: rest) s).1 = exitCode (runLine S (.forCommand (S.promptsForLines s.world)) line s').1 := by
  have looked : look S.promptsForLines s = (S.promptsForLines s.world, s) := rfl
  simp only [runCommandLine, Invocation.ofArguments, bind_apply, looked, started]
  rfl

end ExitCodesAux

open ExitCodesAux

/-- Every status is an exit code, on any system whose children end with codes of eight bits. A line has a status of eight bits, whatever
the session, and the shell gives it back as it is; the last status is the one of the last line with something to run, so that it never has
more than eight bits, whatever lines are run. A shell for a single command ends with its status. The status of `exit` with a number of 64
bits is the one that is the same modulo 256. -/
theorem statuses_are_exit_codes (hS : S.ReportsOctets) :
    (∀ (c : Settings) (line : String) (s : Session σ),
      let r := runLine S c line s
      IsOctet r.1 ∧ (exitCode r.1 : Int) = r.1 ∧ r.2.lastStatus = if (Pipeline.ofLine line).isEmpty then s.lastStatus else r.1) ∧
    (∀ (c : Settings) (lines : List String) (s : Session σ), IsOctet s.lastStatus →
      (∀ status ∈ (runLines S c lines s).1, IsOctet status) ∧ IsOctet (runLines S c lines s).2.lastStatus) ∧
    (∀ (line : String) (rest : List String) (s s' : Session σ),
      start S (.forCommand (S.promptsForLines s.world)) s = (.ok (), s') →
        ((runCommandLine S ("-c" :: line :: rest) s).1 : Int) = (runLine S (.forCommand (S.promptsForLines s.world)) line s').1) ∧
    (∀ (c : Settings) (line arg : String) (rest : List String) (s : Session σ) (n : Int),
      (Pipeline.ofLine line).stages = [⟨"exit", arg :: rest⟩] → Numeral.int64? arg = some n → 256 ∣ n - (runLine S c line s).1) ∧
    ∀ (c : Settings) (s : Session σ) (n : Int), -(Nat.pow 2 63) ≤ n → n < Nat.pow 2 63 →
      256 ∣ n - (runLine S c ("exit " ++ toString n) s).1 := by
  have octet : ∀ (c : Settings) (line : String) (s : Session σ), IsOctet (runLine S c line s).1 := fun c line s => octet_runLine hS line s
  refine ⟨fun c line s => ⟨octet c line s, exitCode_of_isOctet (octet c line s), lastStatus_runLine line s⟩,
    fun c lines s hs => octet_runLines hS lines hs, fun line rest s s' started => ?_, fun c line arg rest s n hp hn => ?_,
    fun c s n hl hh => ?_⟩
  · rw [runCommandLine_command started]
    exact exitCode_of_isOctet (octet _ line s')
  · rw [status_of_exit hp hn]
    exact Int.dvd_self_sub_emod
  · have parted : "exit " = "exit" ++ " " := by decide
    have stages : (Pipeline.ofLine ("exit " ++ toString n)).stages = [⟨"exit", [toString n]⟩] := by
      rw [parted]
      exact stages_of_two_words (by decide) (List.all_eq_true.1 (by decide)) (toString_ne_empty n) isBare_toString
    rw [status_of_exit stages (Numeral.int64?_toString hl hh)]
    exact Int.dvd_self_sub_emod

/-- A system on which processes can be started, and waits are told what the children do, in this order. -/
def System.fated : System (Unit × List ChildFate) :=
  { System.idle.beside (List ChildFate) with
    patience := 9
    fork := fun _ w => (.ok (w.2.length + 1), w)
    await := fun pgid w =>
      match w.2 with
      | [] => (.error .noChild, w)
      | fate :: rest => (fate.report pgid, (w.1, rest)) }

/-- Exit codes are reported with eight bits there. -/
theorem System.fated_reportsOctets : System.fated.ReportsOctets := by
  refine reportsOctets_of_fates fun pgid w => ?_
  obtain ⟨u, fates⟩ := w
  cases fates with
  | nil => exact .inl ⟨.noChild, rfl⟩
  | cons fate rest => exact .inr ⟨pgid, fate, rfl⟩

/-- The largest exit code, a signal that kills, one that stops, and one without a name; then nothing to run, and `exit` with a negative
number. The first alone is the code of a shell, and `exit` takes the smallest number of 64 bits. -/
theorem statuses_of_fates :
    let s : Session (Unit × List ChildFate) := { world := ((), [.exits 255, .killed 9 false, .stopped 20, .killed 40 true]) }
    let c := Settings.forCommand false
    let lines := ["make", "make", "vi", "make", "", "exit -1"]
    (runLines System.fated c lines s).1 = [255, 137, 148, 1, 0, 255] ∧
      (∀ status ∈ (runLines System.fated c lines s).1, IsOctet status) ∧ IsOctet (runLines System.fated c lines s).2.lastStatus ∧
      ((runCommandLine System.fated ["-c", "make", "vi"] s).1 : Int) = 255 ∧
      256 ∣ -1 - (runLine System.fated c "exit -1 now &" s).1 ∧
      256 ∣ -9223372036854775808 - (runLine System.fated c ("exit " ++ toString (-9223372036854775808 : Int)) s).1 := by
  intro s c lines
  obtain ⟨-, octets, coded, exited, numbered⟩ := statuses_are_exit_codes System.fated_reportsOctets
  obtain ⟨statuses, last⟩ := octets c lines s (by decide)
  refine ⟨by decide +kernel, statuses, last, ?_, ?_, numbered c s (-9223372036854775808) (by decide) (by decide)⟩
  · have started : start System.fated c s = (.ok (), (start System.fated c s).2) := rfl
    have status : (runLine System.fated c "make" (start System.fated c s).2).1 = 255 := by decide +kernel
    exact (coded "make" ["vi"] s _ started).trans status
  · have stages : (Pipeline.ofLine "exit -1 now &").stages = [⟨"exit", ["-1", "now"]⟩] := by decide +kernel
    exact exited c _ "-1" ["now"] s (-1) stages (by decide +kernel)

end JobShell
