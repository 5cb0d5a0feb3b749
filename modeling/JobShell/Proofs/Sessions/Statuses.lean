import JobShell.CommandLine
import JobShell.Proofs.Sessions.Operations

/-!
# Statuses

The status of a line becomes the code with which the shell ends, and such a code has eight bits. Every status that the shell itself comes
to has no more: builtins answer 0, 1, 2 or a number modulo 256, and a signal is told by 128 and its number. The rest are the exit codes
of programs, which are what the system reports (`System.ReportsOctets`). So every line has a status of eight bits
(`octet_execute`), and the shell ends with it as it is (`exitCode_of_isOctet`).
-/

namespace JobShell

open Act

variable {σ α β ε : Type} {S : System σ} {P : α → Prop} {Q : β → Prop}

/-- The status has no more than eight bits. -/
def IsOctet (status : Int) : Prop := 0 ≤ status ∧ status ≤ 255

instance (status : Int) : Decidable (IsOctet status) := inferInstanceAs (Decidable (0 ≤ status ∧ status ≤ 255))

/-- The shell ends with a status of eight bits as it is. -/
theorem exitCode_of_isOctet {status : Int} (h : IsOctet status) : (exitCode status : Int) = status := by
  have kept : exitCode status = status.toNat := if_pos h
  rw [kept, Int.toNat_of_nonneg h.1]

/-- The exit codes that the system reports have eight bits. -/
def System.ReportsOctets (S : System σ) : Prop :=
  ∀ pgid pid code w, (S.await pgid w).1 = .ok (.exited pid code) → IsOctet code

/-- The numbers of signals are small. -/
theorem Signal.number_le (s : Signal) : s.number ≤ 31 := by cases s <;> decide

/-- A number of a signal, after 128, has eight bits. -/
theorem Signal.octet (s : Signal) : IsOctet (128 + s.number) := by
  have := s.number_le
  exact ⟨by omega, by omega⟩

namespace Act

/-- Whatever the session, what the action gives is as it should be. -/
def Gives (P : α → Prop) (a : Act σ α) : Prop := ∀ s, P (a s).1

/-- A value is what it is. -/
theorem gives_pure {x : α} (h : P x) : Gives P (pure x : Act σ α) := fun _ => h

/-- What an action gives is what its last part gives. -/
theorem gives_bind {a : Act σ α} {f : α → Act σ β} (hf : ∀ x, Gives Q (f x)) : Gives Q (a >>= f) := fun s => hf (a s).1 (a s).2

/-- What the first part gives may be made use of. -/
theorem Gives.bind {a : Act σ α} {f : α → Act σ β} (ha : Gives P a) (hf : ∀ x, P x → Gives Q (f x)) : Gives Q (a >>= f) :=
  fun s => hf (a s).1 (ha s) (a s).2

end Act

namespace StatusesAux

/-- A result, if it is none of failure, has a status of eight bits. -/
def Reported (r : Except ε ForegroundOutcome) : Prop := ∀ o, r = .ok o → IsOctet o.code

/-- A failure has no status. -/
theorem reported_error (e : ε) : Reported (.error e : Except ε ForegroundOutcome) := nofun

/-- An outcome with a status of eight bits. -/
theorem reported_ok {o : ForegroundOutcome} (h : IsOctet o.code) : Reported (.ok o : Except ε ForegroundOutcome) := by
  rintro o' ⟨⟩
  exact h

/-- The status of success has eight bits. -/
theorem octet_zero : IsOctet 0 := by decide

/-- The status of most failures has eight bits. -/
theorem octet_one : IsOctet 1 := by decide

/-! ## Waits -/

/-- What one more result makes of a wait. -/
theorem octet_observe {g : GroupWait} {p : WaitProgress} {result : WaitResult} (hp : IsOctet p.status.code)
    (hr : ∀ pid code, result = .ok (.exited pid code) → IsOctet code) :
    match g.observe p result with
    | .proceed p' => IsOctet p'.status.code
    | .settled r => Reported r := by
  have counted : ∀ pid exit, IsOctet exit.code → IsOctet (g.collect p pid exit).status.code := by
    intro pid exit he
    rw [GroupWait.collect]
    split
    · exact he
    · exact hp
  rcases result with e | status
  · by_cases hi : e = .interrupted
    · simp only [GroupWait.observe, if_pos hi]
      exact hp
    · by_cases hn : e = .noChild
      · simp only [GroupWait.observe, if_neg hi, if_pos hn]
        exact reported_ok hp
      · simp only [GroupWait.observe, if_neg hi, if_neg hn]
        exact reported_error e
  · cases status with
    | exited pid code => exact counted _ (.exited code) (hr pid code rfl)
    | signaled pid signal core => exact counted _ (.signaled signal.number) signal.octet
    | stopped pid signal => exact reported_ok signal.octet
    | continued pid => exact hp
    | traceEvent pid => exact hp
    | traceCall pid => exact hp
    | stillAlive => exact hp

variable (hS : S.ReportsOctets)
include hS

/-- A wait ends with a status of eight bits, if it has come to one so far. -/
theorem octet_awaitGroupFrom (g : GroupWait) (patience : Nat) {p : WaitProgress} (hp : IsOctet p.status.code) :
    Gives Reported (awaitGroupFrom S g patience p) := by
  induction patience generalizing p with
  | zero => exact gives_pure (reported_error _)
  | succ patience ih =>
    rw [awaitGroupFrom]
    split
    · exact gives_pure (reported_ok hp)
    · have asked : Gives (fun r : WaitResult => ∀ pid code, r = .ok (.exited pid code) → IsOctet code) (ask (S.await g.pgid)) :=
        fun s pid code => hS g.pgid pid code s.world
      refine asked.bind fun result hr => ?_
      have observed := octet_observe (g := g) hp hr
      dsimp only
      cases ho : g.observe p result with
      | proceed p' =>
        rw [ho] at observed
        split
        · exact gives_bind fun _ => ih observed
        · exact ih observed
      | settled r =>
        rw [ho] at observed
        split
        · exact gives_bind fun _ => gives_pure observed
        · exact gives_pure observed

/-- A wait for a group ends with a status of eight bits. -/
theorem octet_awaitGroup (g : GroupWait) : Gives Reported (awaitGroup S g) :=
  octet_awaitGroupFrom hS g S.patience octet_zero

/-- A job that is continued in the foreground ends with a status of eight bits. -/
theorem octet_bringToForeground (id : JobId) : Gives Reported (bringToForeground S id) := by
  refine gives_bind fun s => ?_
  cases s.table.claim? id with
  | none => exact gives_pure (reported_error _)
  | some claimed =>
    obtain ⟨t, c⟩ := claimed
    refine gives_bind fun _ => gives_bind fun _ => gives_bind fun r => ?_
    cases r with
    | error cause => exact gives_bind fun _ => gives_bind fun _ => gives_pure (reported_error _)
    | ok =>
      refine (octet_awaitGroup hS _).bind fun r hr => gives_bind fun _ => ?_
      rcases r with cause | (status | ⟨signal, live⟩)
      · exact gives_bind fun _ => gives_pure (reported_error _)
      · exact gives_bind fun _ => gives_pure (reported_ok (hr _ rfl))
      · exact gives_bind fun _ => gives_pure (reported_ok (hr _ rfl))

/-- A pipeline that is launched has a status of eight bits. -/
theorem octet_runProcesses (x : Executor) (p : Pipeline) (command : String) : Gives IsOctet (runProcesses S x p command) := by
  refine gives_bind fun r => ?_
  cases r with
  | error e => exact gives_bind fun _ => gives_pure octet_one
  | ok l =>
    dsimp only
    split
    · exact gives_bind fun _ => gives_bind fun _ => gives_bind fun _ => gives_pure octet_zero
    · have waited : Gives Reported (awaitForeground S l) :=
        gives_bind fun _ => (octet_awaitGroup hS _).bind fun r hr => gives_bind fun _ => gives_pure hr
      refine waited.bind fun r hr => ?_
      rcases r with cause | (status | ⟨signal, live⟩)
      · exact gives_bind fun _ => gives_pure octet_one
      · exact gives_bind fun _ => gives_pure (hr _ rfl)
      · exact gives_bind fun _ => gives_pure (hr _ rfl)

/-! ## Builtins -/

omit hS in
/-- Messages make a failure, and without one there is success. -/
theorem octet_ofErrors (errors : List String) : IsOctet (CommandResult.ofErrors errors).code := by
  cases errors with
  | nil => exact octet_zero
  | cons _ _ => exact octet_one

omit hS in
/-- What `exit` answers has eight bits. -/
theorem octet_exitResult (args : List String) : IsOctet (exitResult args).code := by
  cases args with
  | nil => exact octet_zero
  | cons arg rest =>
    rw [exitResult]
    split
    · rename_i n _
      have low : 0 ≤ n % 256 := Int.emod_nonneg n (by decide)
      have high : n % 256 < 256 := Int.emod_lt_of_pos n (by decide)
      exact ⟨low, Int.lt_add_one_iff.1 high⟩
    · exact (show IsOctet 2 by decide)

omit hS in
/-- A command that names no job is answered with a status of eight bits. -/
theorem octet_targetJob (command : String) (args : List String) :
    Gives (fun r => ∀ result, r = .error result → IsOctet result.code)
      (targetJob command args : Act σ (Except CommandResult JobId)) := by
  have refused : ∀ message, ∀ result, (.error (.failure 1 message) : Except CommandResult JobId) = .error result → IsOctet result.code := by
    rintro message result ⟨⟩
    exact octet_one
  cases args with
  | nil =>
    refine gives_bind fun s => ?_
    split
    · exact gives_pure nofun
    · exact gives_pure (refused _)
  | cons spec rest =>
    rw [targetJob]
    split
    · exact gives_pure nofun
    · exact gives_pure (refused _)

/-- A builtin answers with a status of eight bits. -/
theorem octet_runBuiltin (args : List String) (b : Builtin) : Gives (fun r => IsOctet r.code) (runBuiltin S args b) := by
  cases b with
  | bg =>
    refine (octet_targetJob "bg" args).bind fun r hr => ?_
    cases r with
    | error result => exact gives_pure (hr result rfl)
    | ok id =>
      refine gives_bind fun r => ?_
      cases r with
      | error e => exact gives_pure octet_one
      | ok => exact gives_pure octet_zero
  | fg =>
    refine (octet_targetJob "fg" args).bind fun r hr => ?_
    cases r with
    | error result => exact gives_pure (hr result rfl)
    | ok id =>
      refine (octet_bringToForeground hS id).bind fun r hr => ?_
      cases r with
      | error e => exact gives_pure octet_one
      | ok outcome => exact gives_pure (hr outcome rfl)
  | kill =>
    rw [runBuiltin, Act.kill]
    split
    · exact gives_pure octet_one
    · exact gives_pure octet_one
    · exact gives_bind fun _ => gives_pure (octet_ofErrors _)
  | cd =>
    refine gives_bind fun s => ?_
    split
    · exact gives_pure octet_one
    · refine gives_bind fun _ => gives_bind fun r => ?_
      cases r with
      | error e => exact gives_pure octet_one
      | ok => exact gives_bind fun _ => gives_bind fun _ => gives_pure octet_zero
  | exit => exact gives_bind fun _ => gives_pure (octet_exitResult args)
  | exportVars | unsetVars =>
    cases args with
    | nil => exact gives_pure octet_one
    | cons a rest => exact gives_bind fun _ => gives_pure (octet_ofErrors _)
  | pwd =>
    refine gives_bind fun r => ?_
    cases r with
    | error e => exact gives_pure octet_one
    | ok dir => exact gives_pure octet_zero
  | env | history | jobs => exact gives_bind fun _ => gives_pure octet_zero
  | echo => exact gives_pure octet_zero

/-- A stage that is run in the shell itself has a status of eight bits. -/
theorem octet_runInShell (x : Executor) (stage : Stage) : Gives IsOctet (runInShell S x stage) := by
  have named : Gives (fun r => IsOctet r.code) (runNamed S x.builtins stage) := by
    rw [runNamed]
    split
    · exact octet_runBuiltin hS _ _
    · exact gives_pure (show IsOctet 127 by decide)
  exact named.bind fun _ hr => gives_bind fun _ => gives_bind fun _ => gives_pure hr

end StatusesAux

open StatusesAux

/-- Every line has a status of eight bits, if the exit codes that the system reports have. -/
theorem octet_execute (hS : S.ReportsOctets) (x : Executor) (p : Pipeline) (line : String) : Gives IsOctet (execute S x p line) := by
  have remembered : ∀ status, IsOctet status →
      Gives IsOctet (do modify fun s => { s with lastStatus := status }; return status : Act σ Int) :=
    fun status hs => gives_bind fun _ => gives_pure hs
  cases hs : x.inShell? p with
  | some stage =>
    rw [execute_of_inShell S line hs]
    exact (octet_runInShell hS x stage).bind remembered
  | none =>
    rw [execute_of_launched S line hs]
    split
    · exact gives_pure octet_zero
    · exact (octet_runProcesses hS x p _).bind remembered

end JobShell
