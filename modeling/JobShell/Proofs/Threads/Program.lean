import JobShell.CommandLine
import JobShell.Proofs.Threads.Sessions

/-!
# The program as a run

Whatever the shell is asked to do, it does in steps of the two threads (`runs_runCommandLine`): from one point between two
operations to another, it goes through the operations on jobs, the passes of the collector and what is quiet. So what every run
keeps holds of the program (`wellFormed_of_runs`).
-/

namespace JobShell

open Act QuietAux SessionsAux

variable {σ : Type}

/-- The action is a run of both threads, from one point between two operations to another. -/
def Act.Runs {α : Type} (a : Act σ α) : Prop := ∀ s, Leads (s.between .ready) ((a s).2.between .ready)

namespace ProgramAux

variable {α β : Type} {a : Act σ α} {f : α → Act σ β} {S : System σ}

/-- A quiet action is no step at all. -/
theorem runs_of_quiet (h : Quiet a) : Runs a := by
  intro s
  rw [between_of_quiet h]
  exact .refl _

/-- Two runs are one. -/
theorem runs_bind (ha : Runs a) (hf : ∀ x, Runs (f x)) : Runs (a >>= f) := fun s => (ha s).trans (hf _ _)

/-- To give a value is a run. -/
theorem runs_pure (x : α) : Runs (pure x : Act σ α) := runs_of_quiet (quiet_pure x)

/-- What only reads the session first is a run if the rest is. -/
theorem runs_get_bind {f : Session σ → Act σ β} (hf : ∀ s, Runs (f s)) : Runs (get >>= f) :=
  runs_bind (runs_of_quiet quiet_get) hf

/-- To send a signal to each target in turn is a run. -/
theorem runs_killTargets (S : System σ) (signal : Signal) (targets : List String) : Runs (killTargets S signal targets) := by
  have one : ∀ target, Runs (killTarget S signal target) := by
    intro target
    rw [killTarget]
    split
    · refine runs_bind (leads_killJob S _ signal) fun r => ?_
      cases r <;> exact runs_pure _
    · refine runs_bind (runs_of_quiet (quiet_ask _)) fun r => ?_
      cases r <;> exact runs_pure _
    · exact runs_pure _
  induction targets with
  | nil => exact runs_pure _
  | cons target rest ih => exact runs_bind (one target) fun _ => runs_bind ih fun _ => runs_pure _

/-- Each builtin is a run. -/
theorem runs_runBuiltin (hS : S.Patient) (args : List String) (b : Builtin) : Runs (runBuiltin S args b) := by
  have target : ∀ command, Runs (targetJob command args : Act σ (Except CommandResult JobId)) := by
    intro command
    cases args with
    | nil =>
      refine runs_get_bind fun s => ?_
      split <;> exact runs_pure _
    | cons spec rest =>
      rw [targetJob]
      split <;> exact runs_pure _
  cases b with
  | bg =>
    refine runs_bind (target "bg") fun r => ?_
    cases r with
    | error result => exact runs_pure _
    | ok id =>
      refine runs_bind (leads_sendToBackground S id) fun r => ?_
      cases r <;> exact runs_pure _
  | fg =>
    refine runs_bind (target "fg") fun r => ?_
    cases r with
    | error result => exact runs_pure _
    | ok id =>
      refine runs_bind (leads_bringToForeground hS id) fun r => ?_
      cases r <;> exact runs_pure _
  | kill =>
    rw [runBuiltin, Act.kill]
    split
    · exact runs_pure _
    · exact runs_pure _
    · exact runs_bind (runs_killTargets S _ _) fun _ => runs_pure _
  | cd => exact runs_of_quiet (quiet_cd S args)
  | exit => exact runs_of_quiet fun _ => ⟨rfl, rfl⟩
  | exportVars | unsetVars =>
    refine runs_of_quiet fun s => ?_
    cases args <;> exact ⟨rfl, rfl⟩
  | pwd =>
    refine runs_of_quiet (quiet_bind (quiet_look _) fun r => ?_)
    cases r <;> exact quiet_pure _
  | env | history | jobs => exact runs_get_bind fun _ => runs_pure _
  | echo => exact runs_pure _

/-- To run a pipeline is a run, whether in the shell itself or in processes. -/
theorem runs_execute (hS : S.Patient) (x : Executor) (p : Pipeline) (line : String) : Runs (execute S x p line) := by
  have inShell : ∀ stage, Runs (runInShell S x stage) := by
    intro stage
    have named : Runs (runNamed S x.builtins stage) := by
      rw [runNamed]
      split
      · exact runs_runBuiltin hS _ _
      · exact runs_pure _
    exact runs_bind named fun _ => runs_of_quiet
      (quiet_bind (quiet_write S _ _) fun _ => quiet_bind (quiet_write S _ _) fun _ => quiet_pure _)
  have remember : ∀ status : Int, Runs (do modify fun s => { s with lastStatus := status }; return status : Act σ Int) :=
    fun _ => runs_of_quiet fun _ => ⟨rfl, rfl⟩
  rw [execute]
  split
  · exact runs_pure _
  · dsimp only
    split
    · exact runs_bind (inShell _) remember
    · exact runs_bind (leads_runProcesses hS x p _) remember

/-- To run a line, if it is not blank, is a run. -/
theorem runs_processLine (hS : S.Patient) (c : Settings) (line : String) : Runs (processLine S c line) := by
  rw [processLine]
  split
  · exact runs_get_bind fun _ => runs_pure _
  · have ran : Runs (runLine S c line) := runs_bind (runs_of_quiet fun _ => ⟨rfl, rfl⟩) fun _ => runs_execute hS _ _ _
    exact runs_bind ran fun _ => runs_bind (fun s => leads_serveCollector S s .ready) fun _ => runs_pure _

/-- To ask for a line is a run. -/
theorem runs_nextEntry (S : System σ) (patience : Nat) : Runs (nextEntry S patience) := by
  induction patience with
  | zero => exact runs_pure _
  | succ patience ih =>
    refine runs_bind (runs_of_quiet (quiet_ask _)) fun r => ?_
    cases r with
    | interrupted => exact runs_bind (fun s => leads_serveCollector S s .ready) fun _ => ih
    | _ => exact runs_pure _

/-- To take lines and run them is a run. -/
theorem runs_converse (hS : S.Patient) (c : Settings) (patience : Nat) : Runs (converse S c patience) := by
  have prompted : Runs (prompt S) := runs_of_quiet fun _ => ⟨rfl, rfl⟩
  induction patience with
  | zero => exact runs_pure _
  | succ patience ih =>
    rw [converse]
    refine runs_bind (runs_of_quiet (quiet_look _)) fun prompts => ?_
    split
    on_goal 1 => refine runs_bind prompted fun _ => runs_bind (runs_of_quiet (quiet_write S _ _)) fun _ => ?_
    -- What follows is the same, with a prompt before it and without.
    all_goals
      refine runs_bind (runs_nextEntry S _) fun entry => ?_
      cases entry with
      | line line =>
        refine runs_bind (runs_processLine hS c line) fun _ => runs_get_bind fun s => ?_
        split
        · exact runs_pure _
        · exact runs_bind ih fun _ => runs_pure _
      | _ => exact runs_bind (runs_of_quiet (quiet_write S _ _)) fun _ => runs_pure _

/-- To stop the collector is a run. -/
theorem runs_stopCollector (S : System σ) : Runs (stopCollector S) :=
  runs_bind (fun s => leads_collectPass S s .ready) fun _ => runs_of_quiet fun _ => ⟨rfl, rfl⟩

/-- To set a shell up is a run. -/
theorem runs_start (S : System σ) (c : Settings) : Runs (start S c) := by
  have started : ∀ interval, Runs (startCollector S interval) := fun interval =>
    runs_bind (fun s => leads_collectPass S s .ready) fun _ => runs_of_quiet fun _ => ⟨rfl, rfl⟩
  rw [start]
  split
  on_goal 1 => refine runs_bind (runs_of_quiet (quiet_ask _)) fun r => ?_
  on_goal 2 => refine runs_bind (runs_pure _) fun r => ?_
  all_goals
    cases r with
    | error e => exact runs_pure _
    | ok =>
      dsimp only
      split
      on_goal 1 => refine runs_bind (runs_of_quiet (quiet_ask _)) fun _ => ?_
      all_goals exact runs_bind (runs_of_quiet fun _ => ⟨rfl, rfl⟩) fun _ => runs_bind (started _) fun _ => runs_pure _

/-- The loop from its first line to its last is a run. -/
theorem runs_interact (hS : S.Patient) (c : Settings) : Runs (interact S c) := by
  refine runs_get_bind fun s => runs_bind (runs_of_quiet (quiet_look _)) fun home => ?_
  refine runs_bind (runs_of_quiet (quiet_look _)) fun text => runs_bind (runs_converse hS c _) fun lines => ?_
  dsimp only
  split
  on_goal 1 => refine runs_bind (runs_of_quiet (quiet_tell _)) fun _ => ?_
  all_goals exact runs_bind (runs_stopCollector S) fun _ => runs_get_bind fun _ => runs_pure _

end ProgramAux

open ProgramAux

/-- The life of a shell is a run of both threads, whatever it is asked to do, on a system that is patient with waits. -/
theorem runs_runCommandLine {S : System σ} (hS : S.Patient) (args : List String) : Runs (runCommandLine S args) := by
  have refused : ∀ e, Runs (refuse S e) := fun e => runs_of_quiet (quiet_bind (quiet_write S _ _) fun _ => quiet_pure _)
  refine runs_bind (runs_of_quiet (quiet_look _)) fun terminal => ?_
  cases Invocation.ofArguments args with
  | loop =>
    refine runs_bind (runs_start S _) fun r => ?_
    cases r with
    | error e => exact refused e
    | ok => exact runs_interact hS _
  | command line =>
    refine runs_bind (runs_start S _) fun r => ?_
    cases r with
    | error e => exact refused e
    | ok =>
      have ran : Runs (runLine S (.forCommand terminal) line) :=
        runs_bind (runs_of_quiet fun _ => ⟨rfl, rfl⟩) fun _ => runs_execute hS _ _ _
      exact runs_bind ran fun _ => runs_bind (runs_stopCollector S) fun _ => runs_pure _
  | missingCommand | help | version | unknown => exact runs_bind (runs_of_quiet (quiet_write S _ _)) fun _ => runs_pure _

/-- A shell that begins without jobs has a well-formed table whenever it answers. -/
theorem wellFormed_of_runs {α : Type} {a : Act σ α} (h : Runs a) (s : Session σ) (hs : s.table = {}) :
    (a s).2.table.WellFormed := by
  obtain ⟨new, hr⟩ := h s []
  have sound : Sound (s.between .ready) := ⟨by rw [Session.between, Session.state, hs]; exact JobTable.wellFormed_empty, nofun⟩
  exact (Sound.of_run hr sound).wellFormed

end JobShell
