import JobShell.Proofs.Sessions.Operations

/-!
# What only the shell itself decides

Some things no change of the table and hardly a request to the system has a part in: whether the shell is to end, the status of the last
line, whether there is a collector, which lines are still to be read. A relation that looks at nothing else is called standing.
Everything the shell does to run a line stays within it (`Standing.runProcesses`, `Standing.runInShell`), but for what the relation may
be about: the builtin `exit`, and that a line's status is noted (`Standing.execute`).
-/

namespace JobShell

open Act

variable {σ : Type} {S : System σ} {R : Session σ → Session σ → Prop}

/-- The system was asked for something that a line needs to be run. -/
inductive System.Served (S : System σ) : σ → σ → Prop
  | asked {w w' : σ} : S.Asked w w' → S.Served w w'
  | await (pgid : Pid) (w : σ) : S.Served w (S.await pgid w).2
  | giveTerminal (pgid : Pid) (w : σ) : S.Served w (S.giveTerminal pgid w).2
  | reclaimTerminal (w : σ) : S.Served w (S.reclaimTerminal w).2
  | fork (plan : ChildPlan) (w : σ) : S.Served w (S.fork plan w).2
  | placeInGroup (pid pgid : Pid) (w : σ) : S.Served w (S.placeInGroup pid pgid w)

/-- A relation that looks neither at the table, the terminal, the notices and the variables, nor at anything that changes when the system
is asked for what a line needs. -/
structure Standing (S : System σ) (R : Session σ → Session σ → Prop) : Prop where
  trans : ∀ {s s' s''}, R s s' → R s' s'' → R s s''
  free : ∀ s table terminal notices environment, R s { s with table, terminal, notices, environment }
  served : ∀ {s w}, S.Served s.world w → R s { s with world := w }
  timed : ∀ s c c', s.collector = some c → R s { s with collector := some c' }

/-- It stands whether there is a collector. -/
theorem standing_collector (S : System σ) : Standing S fun s s' => s.collector = none → s'.collector = none where
  trans h h' hs := h' (h hs)
  free _ _ _ _ _ := id
  served _ := id
  timed _ _ _ hc hs := nomatch hc.symm.trans hs

/-- It stands what the status of the last line is. -/
theorem standing_lastStatus (S : System σ) : Standing S fun s s' => s'.lastStatus = s.lastStatus where
  trans h h' := h'.trans h
  free _ _ _ _ _ := rfl
  served _ := rfl
  timed _ _ _ _ := rfl

/-- It stands whether the shell is to end. -/
theorem standing_exiting (S : System σ) : Standing S fun s s' => s'.exiting = s.exiting where
  trans h h' := h'.trans h
  free _ _ _ _ _ := rfl
  served _ := rfl
  timed _ _ _ _ := rfl

namespace Standing

variable (h : Standing S R)
include h

/-- A change of the table stays within. -/
theorem table (s : Session σ) (t : JobTable) : R s { s with table := t } := h.free s t s.terminal s.notices s.environment

/-- A standing relation is a frame for jobs. -/
theorem jobFrame : JobFrame S R where
  refl s := h.table s s.table
  trans := h.trans
  environment s e := h.free s s.table s.terminal s.notices e
  asked hw := h.served (.asked hw)
  announced s notices := h.free s s.table s.terminal notices s.environment
  collected s _ := h.table s _
  timed := h.timed
  ended s _ _ _ := h.table s _
  finished s _ _ := h.table s _
  suspended s _ _ _ _ := h.table s _
  resumed s _ _ _ _ := h.table s _

/-- A standing relation is a frame for launches. -/
theorem launchFrame : LaunchFrame S R where
  toFrame := h.jobFrame.toFrame
  forked s plan := h.served (.fork plan s.world)
  placed s pid pgid := h.served (.placeInGroup pid pgid s.world)

/-- A request to the terminal is noted within. -/
theorem noteTerminal (event : TerminalEvent) : Within R (modify fun s => { s with terminal := s.terminal ++ [event] } : Act σ Unit) :=
  fun s => h.free s s.table (s.terminal ++ [event]) s.notices s.environment

/-- To hand the terminal over stays within. -/
theorem giveTerminal (pgid : Pid) : Within R (giveTerminal S pgid) := by
  have asked : Within R (ask (S.giveTerminal pgid)) := fun s => h.served (.giveTerminal pgid s.world)
  exact h.jobFrame.bind (h.noteTerminal _) fun _ => h.jobFrame.bind asked fun _ => h.jobFrame.pure ()

/-- To take the terminal back stays within. -/
theorem reclaimTerminal : Within R (reclaimTerminal S) := by
  have asked : Within R (ask S.reclaimTerminal) := fun s => h.served (.reclaimTerminal s.world)
  exact h.jobFrame.bind (h.noteTerminal _) fun _ => h.jobFrame.bind asked fun _ => h.jobFrame.pure ()

/-- To wait for a group stays within. -/
theorem awaitGroup (g : GroupWait) : Within R (awaitGroup S g) :=
  h.jobFrame.awaitGroupFrom (fun s => h.served (.await g.pgid s.world)) S.patience {}

/-- To wait for a pipeline just launched stays within. -/
theorem awaitForeground (l : Launched) : Within R (awaitForeground S l) := by
  have frame := h.jobFrame
  exact frame.bind (h.giveTerminal _) fun _ => frame.bind (h.awaitGroup _) fun _ => frame.bind h.reclaimTerminal fun _ => frame.pure _

/-- To continue a job in the foreground stays within. -/
theorem bringToForeground (id : JobId) : Within R (bringToForeground S id) :=
  h.jobFrame.bringToForeground h.table h.giveTerminal h.reclaimTerminal (fun pgid s => h.served (.await pgid s.world)) id

/-- A pipeline that is launched stays within. -/
theorem runProcesses (x : Executor) (p : Pipeline) (command : String) : Within R (runProcesses S x p command) := fun s =>
  h.jobFrame.runProcesses h.launchFrame x p command s (fun _ s' _ _ => h.table s' _) fun l _ _ _ => h.awaitForeground l

/-- A stage that is run in the shell itself stays within, if to end the shell does where the stage is `exit`. -/
theorem runInShell (x : Executor) (stage : Stage)
    (left : Builtin.find? x.builtins stage.program = some .exit → ∀ s, R s { s with exiting := true }) :
    Within R (runInShell S x stage) :=
  h.jobFrame.runInShell x stage fun _ hb => h.jobFrame.runBuiltin _ _ (fun _ => h.bringToForeground) fun he => left (he ▸ hb)

/-- A pipeline stays within, if to note its status does, and to end the shell where the pipeline is `exit`. -/
theorem execute (x : Executor) (p : Pipeline) (line : String) (noted : ∀ s lastStatus, R s { s with lastStatus })
    (left : (x.inShell? p).any (fun stage => Builtin.find? x.builtins stage.program == some .exit) → ∀ s, R s { s with exiting := true }) :
    Within R (execute S x p line) := by
  have frame := h.jobFrame
  have remembered : ∀ status : Int, Within R (do modify fun s => { s with lastStatus := status }; return status : Act σ Int) :=
    fun status s => noted s status
  cases hs : x.inShell? p with
  | some stage =>
    have ran : Within R (Act.runInShell S x stage) := h.runInShell x stage fun hx => left (by simp [hs, hx])
    rw [execute_of_inShell S line hs]
    exact frame.bind ran remembered
  | none =>
    rw [execute_of_launched S line hs]
    split
    · exact frame.pure _
    · exact frame.bind (h.runProcesses x p _) remembered

end Standing

end JobShell
