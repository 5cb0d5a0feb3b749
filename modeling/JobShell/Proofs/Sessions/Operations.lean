import JobShell.Proofs.Sessions.Frames

/-!
# Operations on jobs, one after the other

What a session can be asked to do with its jobs is an `Operation`: to run a line, to let the collector make a pass, and each
operation of the job table. `perform` makes several of them in order. The collector also has its turns inside an operation, wherever
a wait is interrupted.

Every operation stays within a frame for jobs if three things do that the frame itself says nothing of: what it registers, what it
continues in the foreground, and what it waits for there (`SessionFrame.execute_inShell`, `SessionFrame.execute_launched`).
-/

namespace JobShell

/-- What a session can be asked to do with its jobs. -/
inductive Operation where
  | run (p : Pipeline) (line : String)
  | collect
  | add (pgid : Pid) (command : String) (background : Bool) (count : Nat)
  | addPipeline (pgid : Pid) (command : String) (background : Bool) (members : List Pid)
  | trackStopped (pgid : Pid) (command : String) (live : Nat) (members : List Pid)
  | markFinished (pgid : Pid) (status : ExitStatus)
  | childExited (pid : Pid) (status : ExitStatus)
  | childStatus (status : WaitStatus)
  | foreground (id : JobId)
  | background (id : JobId)
  | kill (id : JobId) (signal : Signal)
  | announce (n : Notice)
  | list
  | get (id : JobId)
  deriving DecidableEq, Repr

variable {σ α : Type} {S : System σ} {R : Session σ → Session σ → Prop}

/-- The stage of a pipeline that is run in the shell itself. -/
def Executor.inShell? (x : Executor) (p : Pipeline) : Option Stage :=
  p.single?.filter fun s => (Builtin.find? x.builtins s.program).isSome

/-- A stage that is run in the shell itself, and its status is remembered. -/
theorem execute_of_inShell (S : System σ) {x : Executor} {p : Pipeline} {stage : Stage} (line : String)
    (hs : x.inShell? p = some stage) :
    Act.execute S x p line = (do
      let status ← Act.runInShell S x stage
      modify fun s => { s with lastStatus := status }
      return status) := by
  have inShell : p.single?.filter (fun s => (Builtin.find? x.builtins s.program).isSome) = some stage := hs
  have some_stage : p.isEmpty = false := by
    cases hp : p.stages with
    | nil =>
      rw [Pipeline.single?, hp] at inShell
      cases inShell
    | cons a rest => simp [Pipeline.isEmpty, hp]
  rw [Act.execute, some_stage, inShell]
  rfl

/-- Any other pipeline is launched, and its status is remembered; one without stages is nothing to do. -/
theorem execute_of_launched (S : System σ) {x : Executor} {p : Pipeline} (line : String) (hs : x.inShell? p = none) :
    Act.execute S x p line = if p.isEmpty then pure 0 else (do
      let status ← Act.runProcesses S x p (p.commandText line)
      modify fun s => { s with lastStatus := status }
      return status) := by
  have inShell : p.single?.filter (fun s => (Builtin.find? x.builtins s.program).isSome) = none := hs
  rw [Act.execute, inShell]

namespace Operation

/-- Does what is asked; the answer is left out. -/
def act (S : System σ) (x : Executor) : Operation → Act σ Unit
  | run p line => do let _ ← Act.execute S x p line
  | collect => do let _ ← Act.collectPass S
  | add pgid command inBackground count => modify fun s => { s with table := (s.table.add pgid command inBackground count).1 }
  | addPipeline pgid command inBackground members =>
    modify fun s => { s with table := (s.table.addPipeline pgid command inBackground members).1 }
  | trackStopped pgid command live members => do let _ ← Act.trackStopped S pgid command live members
  | markFinished pgid status => Act.markFinished S pgid status
  | childExited pid status => Act.childExited S pid status
  | childStatus status => Act.childStatus S status
  | foreground id => do let _ ← Act.bringToForeground S id
  | background id => do let _ ← Act.sendToBackground S id
  | kill id signal => do let _ ← Act.killJob S id signal
  | announce n => Act.announce S n
  | list => do let _ := (← MonadState.get).table.list
  | get id => do let _ := (← MonadState.get).table.get? id

end Operation

/-- Does what is asked, the first thing first. -/
def perform (S : System σ) (x : Executor) : List Operation → Act σ Unit
  | [] => pure ()
  | o :: rest => do
    o.act S x
    perform S x rest

/-- What is asked is done in two parts. -/
theorem perform_append (S : System σ) (x : Executor) (ops later : List Operation) (s : Session σ) :
    (perform S x (ops ++ later) s).2 = (perform S x later (perform S x ops s).2).2 := by
  induction ops generalizing s with
  | nil => rfl
  | cons o rest ih => exact ih (o.act S x s).2

/-- A system on which nothing happens: it has no children, no files and no terminal, and its time stands still. -/
def System.idle : System Unit where
  patience := 1
  groupOf _ _ := none
  signalGroup _ _ _ := (.ok (), ())
  signalProcess _ _ _ := (.ok (), ())
  await _ _ := (.error .noChild, ())
  awaitProcess _ _ := (.error .noChild, ())
  poll _ _ := (.error .noChild, ())
  terminalAttached _ := false
  giveTerminal _ _ := (.ok (), ())
  reclaimTerminal _ := (.ok (), ())
  makePipe _ := (.error .tooManyFiles, ())
  closeDescriptor _ _ := ()
  fork _ _ := (.error .noProcess, ())
  placeInGroup _ _ _ := ()
  workingDirectory _ := .error .notFound
  changeDirectory _ _ := (.error .notFound, ())
  write _ _ _ := ()
  promptsForLines _ := false
  readLine _ := (.ended, ())
  now _ := 0
  wakeAt _ _ := ()
  beginInteractive _ := (.ok (), ())
  hostName _ := ""
  accountName _ := ""
  accountHome _ := ""
  readText _ _ := none
  saveText _ _ _ _ := ()

/-- A request that is passed on, and its answer is noted beside the system. -/
def System.noted {τ : Type} (request : σ → α × σ) (note : α → τ → τ) (w : σ × τ) : α × (σ × τ) :=
  ((request w.1).1, ((request w.1).2, note (request w.1).1 w.2))

/-- A request that is passed on and leaves what is beside the system. -/
def System.passed {τ : Type} (request : σ → α × σ) : σ × τ → α × (σ × τ) := noted request fun _ v => v

/-- The system with something beside it that no request touches. -/
def System.beside (S : System σ) (τ : Type) : System (σ × τ) where
  patience := S.patience
  groupOf pid w := S.groupOf pid w.1
  signalGroup pgid signal := passed (S.signalGroup pgid signal)
  signalProcess pid signal := passed (S.signalProcess pid signal)
  await pgid := passed (S.await pgid)
  awaitProcess pid := passed (S.awaitProcess pid)
  poll pgid := passed (S.poll pgid)
  terminalAttached w := S.terminalAttached w.1
  giveTerminal pgid := passed (S.giveTerminal pgid)
  reclaimTerminal := passed S.reclaimTerminal
  makePipe := passed S.makePipe
  closeDescriptor d w := (S.closeDescriptor d w.1, w.2)
  fork plan := passed (S.fork plan)
  placeInGroup pid pgid w := (S.placeInGroup pid pgid w.1, w.2)
  workingDirectory w := S.workingDirectory w.1
  changeDirectory path := passed (S.changeDirectory path)
  write stream text w := (S.write stream text w.1, w.2)
  promptsForLines w := S.promptsForLines w.1
  readLine := passed S.readLine
  now w := S.now w.1
  wakeAt time w := (S.wakeAt time w.1, w.2)
  beginInteractive := passed S.beginInteractive
  hostName w := S.hostName w.1
  accountName w := S.accountName w.1
  accountHome w := S.accountHome w.1
  readText path w := S.readText path w.1
  saveText directory file text w := (S.saveText directory file text w.1, w.2)

/-! ## Operations within a frame -/

namespace JobFrame

open Act

variable (h : JobFrame S R)
include h

/-- A builtin stays within, if continuing a job in the foreground does where the builtin is `fg`, and to end the shell where it is
`exit`. -/
theorem runBuiltin (args : List String) (b : Builtin) (hf : b = .fg → ∀ id, Within R (bringToForeground S id))
    (hx : b = .exit → ∀ s, R s { s with exiting := true }) : Within R (runBuiltin S args b) := by
  cases b with
  | bg =>
    refine h.bind (h.targetJob "bg" args) fun r => ?_
    cases r with
    | error result => exact h.pure _
    | ok id =>
      refine h.bind (h.sendToBackground id) fun r => ?_
      cases r <;> exact h.pure _
  | fg =>
    refine h.bind (h.targetJob "fg" args) fun r => ?_
    cases r with
    | error result => exact h.pure _
    | ok id =>
      refine h.bind (hf rfl id) fun r => ?_
      cases r <;> exact h.pure _
  | kill =>
    rw [Act.runBuiltin, Act.kill]
    split
    · exact h.pure _
    · exact h.pure _
    · exact h.bind (h.killTargets _ _) fun _ => h.pure _
  | cd => exact h.cd args
  | exit =>
    have left : Within R (modify fun s => { s with exiting := true } : Act σ Unit) := hx rfl
    exact h.bind left fun _ => h.pure _
  | exportVars | unsetVars =>
    intro s
    cases args with
    | nil => exact h.refl s
    | cons a rest => exact h.environment s _
  | pwd =>
    refine h.bind (h.look _) fun r => ?_
    cases r <;> exact h.pure _
  | env | history | jobs => exact within_get_bind fun _ => h.pure _
  | echo => exact h.pure _

/-- To write what a builtin answers stays within, if the builtin does. -/
theorem runInShell (x : Executor) (stage : Stage)
    (hb : ∀ b, Builtin.find? x.builtins stage.program = some b → Within R (Act.runBuiltin S stage.operands b)) :
    Within R (runInShell S x stage) := by
  have named : Within R (runNamed S x.builtins stage) := by
    rw [runNamed]
    split
    · rename_i b hfound
      exact hb b hfound
    · exact h.pure _
  exact h.bind named fun _ => h.bind (h.write _ _) fun _ => h.bind (h.write _ _) fun _ => h.pure _

/-- What the shell does after the wait for a pipeline in the foreground stays within. -/
theorem settled {x : Executor} {p : Pipeline} {s s' : Session σ} {l : Launched} (hl : launch S x.name p s = (.ok l, s'))
    (hb : p.background = false) (command : String) : R (awaitForeground S l s').2 (Act.runProcesses S x p command s).2 := by
  rw [Act.runProcesses, bind_apply, hl]
  dsimp only
  rw [if_neg (by simp [hb]), bind_apply]
  generalize awaitForeground S l s' = q
  obtain ⟨result, s₁⟩ := q
  rcases result with cause | (status | ⟨signal, live⟩)
  · exact h.bind (h.report x _) (fun _ => h.pure _) s₁
  · exact h.bind (h.markFinished _ _) (fun _ => h.pure _) s₁
  · exact h.bind (h.trackStopped _ _ _ _) (fun _ => h.pure _) s₁

/-- A pipeline that is launched stays within, if to register it or to wait for it does. -/
theorem runProcesses (hl : LaunchFrame S R) (x : Executor) (p : Pipeline) (command : String) (s : Session σ)
    (hr : ∀ l s', launch S x.name p s = (.ok l, s') → p.background = true →
      R s' { s' with table := (s'.table.addPipeline l.pgid command true l.pids).1 })
    (hw : ∀ l s', launch S x.name p s = (.ok l, s') → p.background = false → Within R (awaitForeground S l)) :
    R s (runProcesses S x p command s).2 := by
  have launched : R s (launch S x.name p s).2 := hl.launch x.name p s
  generalize hq : launch S x.name p s = q at launched hr hw
  obtain ⟨r, s'⟩ := q
  refine h.trans launched ?_
  cases r with
  | error e =>
    rw [Act.runProcesses, bind_apply, hq]
    exact h.bind (h.report x e) (fun _ => h.pure _) s'
  | ok l =>
    cases hb : p.background with
    | true =>
      rw [Act.runProcesses, bind_apply, hq]
      dsimp only
      rw [if_pos hb]
      exact h.trans (hr l s' rfl hb) (h.announce _ _)
    | false => exact h.trans (hw l s' rfl hb s') (h.settled hq hb command)

/-- To continue a job in the foreground stays within, if a claim does and what becomes of it, the requests to the terminal, and each wait
for a group. -/
theorem bringToForeground (ht : ∀ s table, R s { s with table }) (hg : ∀ pgid, Within R (giveTerminal S pgid))
    (hr : Within R (reclaimTerminal S)) (ha : ∀ pgid, Within R (ask (S.await pgid))) (id : JobId) :
    Within R (bringToForeground S id) := by
  have changed : ∀ change : Session σ → JobTable, Within R (modify fun s => { s with table := change s } : Act σ Unit) :=
    fun change s => ht s _
  refine within_get_bind fun s => ?_
  cases s.table.claim? id with
  | none => exact h.pure _
  | some claimed =>
    obtain ⟨t, c⟩ := claimed
    refine h.bind (changed _) fun _ => h.bind (hg _) fun _ => h.bind (h.ask fun w => .signalGroup _ .cont w) fun r => ?_
    cases r with
    | error cause => exact h.bind hr fun _ => h.bind (changed _) fun _ => h.pure _
    | ok =>
      refine h.bind (h.awaitGroupFrom (ha _) S.patience {}) fun r => h.bind hr fun _ => ?_
      rcases r with cause | (status | ⟨signal, live⟩)
      · exact h.bind (changed _) fun _ => h.pure _
      · exact h.bind (h.markFinished _ _) fun _ => h.pure _
      · exact h.bind (h.trackStopped _ _ _ _) fun _ => h.pure _

end JobFrame

/-! ## Lines within a frame -/

namespace SessionFrame

open Act

variable (h : SessionFrame S R)
include h

/-- To remember the status of a line stays within. -/
theorem remember (status : Int) :
    Within R (do modify fun s => { s with lastStatus := status }; return status : Act σ Int) :=
  fun s => h.noted s status

/-- A line that is run in the shell itself stays within, if continuing a job in the foreground does where it asks for that. -/
theorem execute_inShell (x : Executor) (p : Pipeline) (line : String) {stage : Stage} (hs : x.inShell? p = some stage)
    (hf : Builtin.find? x.builtins stage.program = some .fg → ∀ id, Within R (bringToForeground S id)) :
    Within R (execute S x p line) := by
  have ran : Within R (Act.runInShell S x stage) := h.runInShell x stage fun b hb => h.runBuiltin _ b (fun he => hf (he ▸ hb)) fun _ => h.left
  rw [execute_of_inShell S line hs]
  exact h.bind ran h.remember

/-- Any other line stays within, if to register what it launches or to wait for it does. -/
theorem execute_launched (hl : LaunchFrame S R) (x : Executor) (p : Pipeline) (line : String) (s : Session σ)
    (hs : x.inShell? p = none)
    (hr : ∀ l s', launch S x.name p s = (.ok l, s') → p.background = true →
      R s' { s' with table := (s'.table.addPipeline l.pgid (p.commandText line) true l.pids).1 })
    (hw : ∀ l s', launch S x.name p s = (.ok l, s') → p.background = false → Within R (awaitForeground S l)) :
    R s (execute S x p line s).2 := by
  rw [execute_of_launched S line hs]
  split
  · exact h.refl s
  · exact h.trans (h.runProcesses hl x p _ s hr hw) (h.remember _ _)

end SessionFrame

end JobShell
