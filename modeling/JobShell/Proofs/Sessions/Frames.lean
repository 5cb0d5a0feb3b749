import JobShell.Execution
import JobShell.Proofs.JobTable.Operations

/-!
# What an action leaves as it was

A statement about what an action does not do is a relation between the session before it and the session after it: nothing new was
asked of the terminal, the table holds no new job, and so on. Such a relation is a frame (`Frame`) when it is transitive and when
whatever touches neither the terminal nor the job table stays within it. More stays within some: the changes and notices of the collector
(`CollectorFrame`), the times of its passes, which a wait moves on (`WaitFrame`), the small changes of the table (`JobFrame`), and what
the shell notes of a line (`SessionFrame`). Here it is shown once for each action of the shell that it stays within every frame, so that a
theorem about one relation has nothing to prove but what is special to it. To make children is left to those frames that children
matter nothing to (`LaunchFrame`).
-/

namespace JobShell

variable {σ α β : Type} {S : System σ} {R : Session σ → Session σ → Prop}

/-- The system was asked for something that has to do neither with the terminal, nor with a wait on a whole group, nor with a new
child. -/
inductive System.Asked (S : System σ) : σ → σ → Prop
  | signalGroup (pgid : Pid) (signal : Signal) (w : σ) : S.Asked w (S.signalGroup pgid signal w).2
  | signalProcess (pid : Pid) (signal : Signal) (w : σ) : S.Asked w (S.signalProcess pid signal w).2
  | poll (pgid : Pid) (w : σ) : S.Asked w (S.poll pgid w).2
  | awaitProcess (pid : Pid) (w : σ) : S.Asked w (S.awaitProcess pid w).2
  | makePipe (w : σ) : S.Asked w (S.makePipe w).2
  | closeDescriptor (d : Descriptor) (w : σ) : S.Asked w (S.closeDescriptor d w)
  | changeDirectory (path : String) (w : σ) : S.Asked w (S.changeDirectory path w).2
  | write (stream : Stream) (text : String) (w : σ) : S.Asked w (S.write stream text w)
  | wakeAt (time : Option Nat) (w : σ) : S.Asked w (S.wakeAt time w)

namespace Act

/-- The first action, then the next one on what it gave. -/
theorem bind_apply {a : Act σ α} {f : α → Act σ β} (s : Session σ) : (a >>= f) s = f (a s).1 (a s).2 := rfl

/-- To read the session gives the session. -/
theorem get_apply (s : Session σ) : (get : Act σ (Session σ)) s = (s, s) := rfl

/-- To change the session gives the changed session. -/
theorem modify_apply (change : Session σ → Session σ) (s : Session σ) : (modify change : Act σ Unit) s = ((), change s) := rfl

/-- Whatever the session before the action, the one after it is related to it. -/
def Within (R : Session σ → Session σ → Prop) (a : Act σ α) : Prop := ∀ s, R s (a s).2

/-- To read the session first makes no difference. -/
theorem within_get_bind {f : Session σ → Act σ β} (hf : ∀ s, Within R (f s)) : Within R (get >>= f) := fun s => hf s s

end Act

/-- A relation that does not look at the variables, nor at what the system is asked for, unless it has to do with the terminal, with a
wait on a group or with a new child. -/
structure Frame (S : System σ) (R : Session σ → Session σ → Prop) : Prop where
  refl : ∀ s, R s s
  trans : ∀ {s s' s''}, R s s' → R s' s'' → R s s''
  environment : ∀ s e, R s { s with environment := e }
  asked : ∀ {s w}, S.Asked s.world w → R s { s with world := w }

/-- A frame within which it stays as well to make a child and to place it in its group. -/
structure LaunchFrame (S : System σ) (R : Session σ → Session σ → Prop) : Prop extends Frame S R where
  forked : ∀ s plan, R s { s with world := (S.fork plan s.world).2 }
  placed : ∀ s pid pgid, R s { s with world := S.placeInGroup pid pgid s.world }

/-- A frame within which notices and the changes that the collector makes stay as well. -/
structure CollectorFrame (S : System σ) (R : Session σ → Session σ → Prop) : Prop extends Frame S R where
  announced : ∀ s notices, R s { s with notices }
  collected : ∀ s c, R s { s with table := (s.table.apply c).1 }

/-- A frame for the collector within which it stays as well to set the time of its next pass. -/
structure WaitFrame (S : System σ) (R : Session σ → Session σ → Prop) : Prop extends CollectorFrame S R where
  timed : ∀ s c c', s.collector = some c → R s { s with collector := some c' }

/-- A frame within which all changes of the table stay that neither register nor claim a job, and a group that stops. -/
structure JobFrame (S : System σ) (R : Session σ → Session σ → Prop) : Prop extends WaitFrame S R where
  ended : ∀ s pid group status, R s { s with table := (s.table.childExited pid group status).1 }
  finished : ∀ s pgid status, R s { s with table := (s.table.markFinished pgid status).1 }
  suspended : ∀ s pgid command live members, R s { s with table := (s.table.trackStopped pgid command live members).1 }
  resumed : ∀ s id t n, s.table.resume? id = some (t, n) → R s { s with table := t }

/-- A frame for jobs within which it stays as well to note the status of a line and that the shell is to end. -/
structure SessionFrame (S : System σ) (R : Session σ → Session σ → Prop) : Prop extends JobFrame S R where
  noted : ∀ s lastStatus, R s { s with lastStatus }
  left : ∀ s, R s { s with exiting := true }

/-! ## Frames -/

namespace Frame

open Act

variable {a : Act σ α} {f : α → Act σ β} (h : Frame S R)
include h

/-- To give a value changes nothing. -/
theorem pure (x : α) : Within R (pure x : Act σ α) := h.refl

/-- One action after another stays within. -/
theorem bind (ha : Within R a) (hf : ∀ x, Within R (f x)) : Within R (a >>= f) := fun s =>
  h.trans (ha s) (hf (a s).1 (a s).2)

/-- To look at the system changes nothing. -/
theorem look (view : σ → α) : Within R (look view) := h.refl

/-- A question to the system stays within. -/
theorem ask {request : σ → α × σ} (hr : ∀ w, S.Asked w (request w).2) : Within R (ask request) := fun _ => h.asked (hr _)

/-- An instruction to the system stays within. -/
theorem tell {change : σ → σ} (hc : ∀ w, S.Asked w (change w)) : Within R (tell change) := fun _ => h.asked (hc _)

/-- To write stays within. -/
theorem write (stream : Stream) (text : String) : Within R (write S stream text) := by
  rw [Act.write]
  split
  · exact h.pure ()
  · exact h.tell fun w => .write stream text w

/-- To close descriptors stays within. -/
theorem closeAll (ds : List Descriptor) : Within R (closeAll S ds) := by
  intro s
  show R s { s with world := ds.foldl (fun world d => S.closeDescriptor d world) s.world }
  induction ds generalizing s with
  | nil => exact h.refl s
  | cons d ds ih =>
    have closed : R s { s with world := S.closeDescriptor d s.world } := h.asked (.closeDescriptor d s.world)
    exact h.trans closed (ih _)

/-- To make pipes stays within. -/
theorem openPipesFrom (made : PipeSet) (count : Nat) : Within R (openPipesFrom S made count) := by
  induction count generalizing made with
  | zero => exact h.pure _
  | succ count ih =>
    refine h.bind (h.ask fun w => .makePipe w) fun r => ?_
    cases r with
    | ok pipe => exact ih _
    | error e => exact h.bind (h.closeAll _) fun _ => h.pure _

/-- To wait for a process stays within. -/
theorem awaitProcess (pid : Pid) (patience : Nat) : Within R (awaitProcess S pid patience) := by
  induction patience with
  | zero => exact h.pure ()
  | succ patience ih =>
    refine h.bind (h.ask fun w => .awaitProcess pid w) fun r => ?_
    split
    · exact ih
    · exact h.pure ()

/-- To kill and collect the children of a failed launch stays within. -/
theorem abandon (made : List Pid) : Within R (abandon S made) := by
  have each : ∀ pids, Within R (awaitProcesses S pids) := by
    intro pids
    induction pids with
    | nil => exact h.pure ()
    | cons pid rest ih => exact h.bind (h.awaitProcess pid _) fun _ => ih
  cases made with
  | nil => exact h.pure ()
  | cons leader rest => exact h.bind (h.ask fun w => .signalGroup leader .kill w) fun _ => each _

/-- To report an error stays within. -/
theorem report (x : Executor) (e : ExecError) : Within R (report S x e) := h.write _ _

/-- To change the working directory stays within. -/
theorem cd (args : List String) : Within R (cd S args) := by
  refine within_get_bind fun s => ?_
  split
  · exact h.pure _
  · refine h.bind (h.look _) fun previous => h.bind (h.ask fun w => .changeDirectory _ w) fun r => ?_
    cases r with
    | error e => exact h.pure _
    | ok =>
      exact h.bind (h.look _) fun current => h.bind (fun s => h.environment s _) fun _ => h.pure _

/-- To find the job that a command names changes nothing. -/
theorem targetJob (command : String) (args : List String) :
    Within R (targetJob command args : Act σ (Except CommandResult JobId)) := by
  cases args with
  | nil =>
    refine within_get_bind fun s => ?_
    split <;> exact h.pure _
  | cons spec rest =>
    rw [Act.targetJob]
    split <;> exact h.pure _

/-- To send a signal to a job stays within. -/
theorem killJob (id : JobId) (signal : Signal) : Within R (killJob S id signal) := by
  refine within_get_bind fun s => ?_
  split
  · exact h.pure _
  · refine h.bind (h.ask fun w => .signalGroup _ signal w) fun r => ?_
    cases r with
    | error cause => exact h.pure _
    | ok =>
      dsimp only
      split
      · exact h.bind (h.ask fun w => .signalGroup _ .cont w) fun _ => h.pure _
      · exact h.pure _

/-- To send a signal to each target in turn stays within. -/
theorem killTargets (signal : Signal) (targets : List String) : Within R (killTargets S signal targets) := by
  have one : ∀ target, Within R (killTarget S signal target) := by
    intro target
    rw [killTarget]
    split
    · refine h.bind (h.killJob _ signal) fun r => ?_
      cases r <;> exact h.pure _
    · refine h.bind (h.ask fun w => .signalProcess _ signal w) fun r => ?_
      cases r <;> exact h.pure _
    · exact h.pure _
  induction targets with
  | nil => exact h.pure _
  | cons target rest ih => exact h.bind (one target) fun _ => h.bind ih fun _ => h.pure _

end Frame

/-! ## Frames for launches -/

namespace LaunchFrame

open Act

variable (h : LaunchFrame S R)
include h

/-- To make the children of a pipeline stays within. -/
theorem forkStages (shell : String) (foreground claimsTerminal : Bool) (stages : List Stage) (index : Nat) (pipes : PipeSet)
    (made : List Pid) : Within R (forkStages S shell foreground claimsTerminal stages index pipes made) := by
  induction stages generalizing index pipes made with
  | nil => exact h.bind (h.closeAll _) fun _ => h.pure _
  | cons stage rest ih =>
    refine within_get_bind fun s => h.bind (fun s => h.forked s _) fun r => ?_
    cases r with
    | error cause => exact h.bind (h.abandon made) fun _ => h.bind (h.closeAll _) fun _ => h.pure _
    | ok child =>
      have release : ∀ i, Within R (releasePipe S pipes i) := fun i => h.bind (h.closeAll _) fun _ => h.pure _
      refine h.bind (fun s => h.placed s child _) fun _ => ?_
      cases index with
      | zero => exact h.bind (h.pure _) fun _ => ih _ _ _
      | succ i => exact h.bind (release i) fun _ => ih _ _ _

/-- A launch stays within, whatever becomes of it. -/
theorem launch (shell : String) (p : Pipeline) : Within R (launch S shell p) := by
  rw [Act.launch]
  split
  · exact h.pure _
  · split
    · exact h.pure _
    · refine h.bind (h.openPipesFrom _ _) fun r => ?_
      cases r with
      | error cause => exact h.pure _
      | ok pipes =>
        refine h.bind (h.look _) fun attached => h.bind (h.forkStages _ _ _ _ _ _ _) fun r => ?_
        rcases r with e | (_ | ⟨leader, rest⟩)
        · exact h.pure _
        · exact h.pure _
        · exact h.pure _

end LaunchFrame

/-! ## Frames for the collector -/

namespace CollectorFrame

open Act

variable (h : CollectorFrame S R)
include h

/-- To give a notice stays within. -/
theorem announce (n : Notice) : Within R (announce S n) := by
  refine h.bind (fun s => h.announced s _) fun _ => within_get_bind fun s => ?_
  split
  · exact h.write _ _
  · exact h.pure ()

/-- A change of the table stays within if the new table does. -/
theorem changeTable {change : JobTable → JobTable × Option Notice} (hc : ∀ s, R s { s with table := (change s.table).1 }) :
    Within R (changeTable S change) := by
  intro s
  have changed := hc s
  rw [Act.changeTable, bind_apply, get_apply]
  generalize change s.table = r at changed ⊢
  obtain ⟨t, n⟩ := r
  cases n with
  | none => exact changed
  | some n => exact h.trans changed (h.announce n _)

/-- To account for a status change stays within. -/
theorem childStatus (status : WaitStatus) : Within R (childStatus S status) :=
  h.bind (h.look _) fun _ => h.changeTable fun s => h.collected s (.report ⟨_, status⟩)

/-- To take the status changes of groups stays within. -/
theorem collectGroups (groups : List Pid) : Within R (collectGroups S groups) := by
  have one : ∀ pgid patience, Within R (collectGroup S pgid patience) := by
    intro pgid patience
    induction patience with
    | zero => exact h.pure _
    | succ patience ih =>
      refine h.bind (h.ask fun w => .poll pgid w) fun r => ?_
      rcases r with e | w
      · dsimp only
        split
        · exact ih
        · split
          · exact h.bind (h.changeTable fun s => h.collected s (.conclusion pgid)) fun _ => h.pure _
          · exact h.pure _
      · cases w with
        | stillAlive => exact h.pure _
        | _ => exact h.bind (h.childStatus _) fun _ => h.bind ih fun _ => h.pure _
  induction groups with
  | nil => exact h.pure _
  | cons pgid rest ih => exact h.bind (one pgid _) fun _ => h.bind ih fun _ => h.pure _

/-- A pass of the collector stays within. -/
theorem collectPass : Within R (collectPass S) := within_get_bind fun _ => h.collectGroups _

end CollectorFrame

/-! ## Frames for waits -/

/-- A pass leaves the collector as it is. -/
theorem Act.collector_collectPass (s : Session σ) : (collectPass S s).2.collector = s.collector := by
  have frame : CollectorFrame S fun s s' => s'.collector = s.collector :=
    { refl := fun _ => rfl, trans := fun h h' => h'.trans h, environment := fun _ _ => rfl, asked := fun _ => rfl
      announced := fun _ _ => rfl, collected := fun _ _ => rfl }
  exact frame.collectPass s

namespace WaitFrame

open Act

variable (h : WaitFrame S R)
include h

/-- A pass that is made when it is due stays within. -/
theorem serveCollector : Within R (serveCollector S) := by
  intro s
  cases hc : s.collector with
  | none =>
    rw [Act.serveCollector, bind_apply, get_apply, hc]
    exact h.refl s
  | some c =>
    rw [Act.serveCollector, bind_apply, get_apply, hc]
    dsimp only
    rw [bind_apply]
    split
    · have kept : (Act.collectPass S s).2.collector = some c := (collector_collectPass s).trans hc
      have timed := h.timed (Act.collectPass S s).2 c { c with due := S.now s.world + c.interval } kept
      exact h.trans (h.trans (h.collectPass s) timed) (h.asked (.wakeAt _ _))
    · exact h.refl s

/-- A foreground wait stays within if each wait on the group does. -/
theorem awaitGroupFrom {g : GroupWait} (ha : Within R (ask (S.await g.pgid))) (patience : Nat) (p : WaitProgress) :
    Within R (awaitGroupFrom S g patience p) := by
  induction patience generalizing p with
  | zero => exact h.pure _
  | succ patience ih =>
    rw [Act.awaitGroupFrom]
    split
    · exact h.pure _
    · refine h.bind ha fun result => ?_
      dsimp only
      cases g.observe p result with
      | proceed p =>
        split
        · exact h.bind h.serveCollector fun _ => ih p
        · exact ih p
      | settled r =>
        split
        · exact h.bind h.serveCollector fun _ => h.pure r
        · exact h.pure r

end WaitFrame

/-! ## Frames for jobs -/

namespace JobFrame

open Act

variable (h : JobFrame S R)
include h

/-- To end the job of a group stays within. -/
theorem markFinished (pgid : Pid) (status : ExitStatus) : Within R (markFinished S pgid status) :=
  h.changeTable fun s => h.finished s pgid status

/-- To account for the end of a process stays within. -/
theorem childExited (pid : Pid) (status : ExitStatus) : Within R (childExited S pid status) :=
  h.bind (h.look _) fun _ => h.changeTable fun s => h.ended s pid _ status

/-- To record a group that stopped stays within. -/
theorem trackStopped (pgid : Pid) (command : String) (live : Nat) (members : List Pid) :
    Within R (trackStopped S pgid command live members) := by
  intro s
  have stopped := h.suspended s pgid command live members
  rw [Act.trackStopped, bind_apply, get_apply]
  generalize s.table.trackStopped pgid command live members = tracked at stopped ⊢
  obtain ⟨t, id, n⟩ := tracked
  cases n with
  | none => exact stopped
  | some n => exact h.trans stopped (h.announce n _)

/-- To continue a job in the background stays within. -/
theorem sendToBackground (id : JobId) : Within R (sendToBackground S id) := by
  refine within_get_bind fun s => ?_
  split
  · exact h.pure _
  · refine h.bind (h.ask fun w => .signalGroup _ .cont w) fun r => ?_
    cases r with
    | error cause => exact h.pure _
    | ok =>
      intro s
      dsimp only
      rw [bind_apply, get_apply]
      dsimp only
      cases hr : s.table.resume? id with
      | none => exact h.refl s
      | some resumed => exact h.trans (h.resumed s id _ _ hr) (h.announce resumed.2 _)

end JobFrame

end JobShell
