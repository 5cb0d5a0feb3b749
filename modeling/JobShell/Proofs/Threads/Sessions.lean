import JobShell.Proofs.Threads.Invariants
import JobShell.Proofs.Threads.Quiet

/-!
# Sessions as runs

A session makes the passes of the collector where the shell lets it, which is one order of the steps of the two threads. Here each
pass and each operation of the shell is shown to be a run from the state of the session before it (`Session.between`) to the one
after it.

A session asks for so many results in one wait and then gives up. A pass that does so is one in which the last wait fails; that no
foreground wait does so is assumed of the system (`System.Patient`).
-/

namespace JobShell

open Act QuietAux

/-- Nothing is assumed. -/
abbrev Unconditional : Assumption := fun _ _ => True

/-- The state of a session, with the threads where these points say. -/
def Session.state {σ : Type} (s : Session σ) (p : ShellPoint) (c : CollectorPoint) (lock : Option Thread) : State :=
  { table := s.table, lock, shell := p, collector := c, notices := s.notices }

/-- The state of a session between two passes of the collector. -/
def Session.between {σ : Type} (s : Session σ) (p : ShellPoint) : State := s.state p .resting none

/-- No foreground wait is given up for want of patience. -/
def System.Patient {σ : Type} (S : System σ) : Prop := ∀ g s, (awaitGroup S g s).1 ≠ .error .interrupted

/-- Some run leads from one state to the other. -/
def Leads (s s' : State) : Prop := ∀ es, ∃ new, Run Unconditional es s (new ++ es) s'

namespace Leads

variable {s s' s'' : State} {e : Event}

/-- No step at all. -/
theorem refl (s : State) : Leads s s := fun _ => ⟨[], .refl⟩

/-- One run after the other. -/
theorem trans (h : Leads s s') (h' : Leads s' s'') : Leads s s'' := by
  intro es
  obtain ⟨new, hr⟩ := h es
  obtain ⟨new', hr'⟩ := h' (new ++ es)
  exact ⟨new' ++ new, by rw [List.append_assoc]; exact hr.trans hr'⟩

/-- One step. -/
theorem step (h : Step s e s') : Leads s s' := fun _ => ⟨[e], Run.refl.step trivial h⟩

/-- A step of the shell that leaves the table. -/
theorem move {p : ShellPoint} (h : s.shell.Moves s.table e p) : Leads s { s with shell := p } := .step (.move h)

/-- A step of the shell that changes the table. -/
theorem change {t : JobTable} {p : ShellPoint} (h : s.shell.Changes s.table e t p) :
    Leads s { s with table := t, shell := p } := .step (.change h)

end Leads

namespace SessionsAux

variable {σ α : Type} {a : Act σ α}

/-- After a quiet action, the session is in the same state. -/
theorem state_of_quiet (h : Quiet a) (s : Session σ) (p : ShellPoint) (c : CollectorPoint) (lock : Option Thread) :
    (a s).2.state p c lock = s.state p c lock := by
  rw [Session.state, Session.state, (h s).1, (h s).2]

/-- After a quiet action, the session is in the same state, between two passes. -/
theorem between_of_quiet (h : Quiet a) (s : Session σ) (p : ShellPoint) : (a s).2.between p = s.between p :=
  state_of_quiet h s p .resting none

/-! ## Passes of the collector -/

/-- A change that the collector records or concludes is told of before it visits the next group. -/
theorem leads_told (S : System σ) (change : JobTable → JobTable × Option Notice) {s : Session σ} {p : ShellPoint}
    {c : CollectorPoint} {work : List Pid} {lock : Option Thread}
    (h : ∀ t n, change s.table = (t, n) → Leads (s.state p c lock) { s.state p (.tell n work) lock with table := t }) :
    Leads (s.state p c lock) ((changeTable S change s).2.state p (.visiting work) lock) := by
  obtain ⟨ht, hn⟩ := changeTable_apply S change s
  refine (h (change s.table).1 (change s.table).2 rfl).trans ?_
  rw [Session.state, Session.state, ht, hn]
  cases (change s.table).2 with
  | none =>
    rw [Option.toList_none, List.append_nil]
    exact .refl _
  | some n => exact .step (.inform rfl)

/-- The collector records a status change, and goes on with its work. -/
theorem leads_childStatus (S : System σ) (w : WaitStatus) (work : List Pid) (p : ShellPoint) (lock : Option Thread)
    (s : Session σ) :
    Leads (s.state p (.recording w work) lock) ((childStatus S w s).2.state p (.visiting work) lock) :=
  leads_told S (·.childStatus (fun pid => S.groupOf pid s.world) w) fun _ _ h =>
    .step (.record (r := ⟨fun pid => S.groupOf pid s.world, w⟩) rfl h)

/-- The collector takes the status changes of the first group, and visits the rest. -/
theorem leads_collectGroup (S : System σ) (pgid : Pid) (rest : List Pid) (p : ShellPoint) (lock : Option Thread) (patience : Nat)
    (s : Session σ) :
    Leads (s.state p (.visiting (pgid :: rest)) lock) ((collectGroup S pgid patience s).2.state p (.visiting rest) lock) := by
  induction patience generalizing s with
  | zero => exact .step (.poll rfl (.error .invalid))
  | succ patience ih =>
    rw [collectGroup, bind_apply, ← state_of_quiet (quiet_ask (S.poll pgid)) s]
    generalize ask (S.poll pgid) s = q
    obtain ⟨r, s⟩ := q
    refine Leads.trans (.step (.poll rfl r)) ?_
    cases r with
    | error e =>
      dsimp only [CollectorPoint.afterPoll]
      split
      · exact ih s
      · split
        · exact leads_told S (·.markFinished pgid .unknown) fun _ _ h => .step (.conclude rfl h)
        · exact .refl _
    | ok w =>
      have taken : Leads (s.state p (.recording w (pgid :: rest)) lock)
          ((collectGroup S pgid patience (childStatus S w s).2).2.state p (.visiting rest) lock) :=
        (leads_childStatus S w _ p lock s).trans (ih _)
      cases w with
      | stillAlive => exact .refl _
      | _ => exact taken

/-- The collector visits its groups in turn. -/
theorem leads_collectGroups (S : System σ) (p : ShellPoint) (lock : Option Thread) (work : List Pid) (s : Session σ) :
    Leads (s.state p (.visiting work) lock) ((collectGroups S work s).2.state p (.visiting []) lock) := by
  induction work generalizing s with
  | nil => exact .refl _
  | cons pgid rest ih => exact (leads_collectGroup S pgid rest p lock S.patience s).trans (ih _)

end SessionsAux

open SessionsAux

variable {σ : Type}

/-- A pass is a run of the collector, wherever the shell stands meanwhile. -/
theorem leads_collectPass (S : System σ) (s : Session σ) (p : ShellPoint) :
    Leads (s.between p) ((collectPass S s).2.between p) := by
  have entered : Leads (s.between p) (s.state p (.visiting s.table.backgroundGroups) (some .collector)) :=
    Leads.trans (.step (.enter rfl rfl)) (.step (.survey rfl))
  exact (entered.trans (leads_collectGroups S p _ _ s)).trans (.step (.leave rfl))

/-- A pass is made when it is due, wherever the shell stands meanwhile. -/
theorem leads_serveCollector (S : System σ) (s : Session σ) (p : ShellPoint) :
    Leads (s.between p) ((serveCollector S s).2.between p) := by
  rw [serveCollector, bind_apply, get_apply]
  cases s.collector with
  | none => exact .refl _
  | some c =>
    dsimp only
    rw [bind_apply]
    split
    · exact leads_collectPass S s p
    · exact .refl _

/-! ## Waits -/

namespace SessionsAux

/-- The session after one wait on a group: the collector has its turn if the wait was interrupted. -/
def awaitedOnce (S : System σ) (pgid : Pid) (s : Session σ) : WaitResult × Session σ :=
  match ask (S.await pgid) s with
  | (r, s) => (r, if r.isInterrupted then (serveCollector S s).2 else s)

/-- A wait that is complete has its outcome. -/
theorem awaitGroupFrom_complete {S : System σ} {g : GroupWait} {p : WaitProgress} (patience : Nat) (s : Session σ)
    (h : g.isComplete p = true) : awaitGroupFrom S g (patience + 1) p s = (.ok (.finished p.status), s) := by
  rw [awaitGroupFrom, if_pos h]
  rfl

/-- Any other takes one more result. -/
theorem awaitGroupFrom_open {S : System σ} {g : GroupWait} {p : WaitProgress} (patience : Nat) (s : Session σ)
    (h : g.isComplete p = false) :
    awaitGroupFrom S g (patience + 1) p s =
      match g.observe p (awaitedOnce S g.pgid s).1 with
      | .proceed p => awaitGroupFrom S g patience p (awaitedOnce S g.pgid s).2
      | .settled r => (r, (awaitedOnce S g.pgid s).2) := by
  rw [awaitGroupFrom, if_neg (by simp [h]), bind_apply, awaitedOnce]
  obtain ⟨r, s⟩ := ask (S.await g.pgid) s
  dsimp only
  split
  · rw [bind_apply]
    cases g.observe p r <;> rfl
  · cases g.observe p r <;> rfl

/-- One wait on a group brings on nothing but passes of the collector. -/
theorem leads_awaitedOnce (S : System σ) (pgid : Pid) (p : ShellPoint) (s : Session σ) :
    Leads (s.between p) ((awaitedOnce S pgid s).2.between p) := by
  rw [awaitedOnce, Session.between, ← state_of_quiet (quiet_ask (S.await pgid)) s]
  obtain ⟨r, s⟩ := ask (S.await pgid) s
  dsimp only
  split
  · exact leads_serveCollector S s p
  · exact .refl _

/-- A foreground wait is a run of both threads, unless it is given up. -/
theorem leads_awaitGroupFrom (S : System σ) (f : Foreground) (patience : Nat) (p : WaitProgress) (s : Session σ)
    (hne : (awaitGroupFrom S f.group patience p s).1 ≠ .error .interrupted) :
    Leads (s.between (.waiting f p))
      ((awaitGroupFrom S f.group patience p s).2.between (.settling f (awaitGroupFrom S f.group patience p s).1)) := by
  induction patience generalizing p s with
  | zero => exact absurd rfl hne
  | succ patience ih =>
    cases hc : f.group.isComplete p with
    | true =>
      rw [awaitGroupFrom_complete patience s hc]
      exact .move (.complete hc)
    | false =>
      rw [awaitGroupFrom_open patience s hc] at hne ⊢
      cases ho : f.group.observe p (awaitedOnce S f.group.pgid s).1 with
      | proceed p' =>
        rw [ho] at hne
        have awaited : Leads (s.between (.waiting f p)) (s.between (.waiting f p')) := .move (.await hc ho)
        exact (awaited.trans (leads_awaitedOnce S f.group.pgid _ s)).trans (ih p' _ hne)
      | settled r =>
        have settled : Leads (s.between (.waiting f p)) (s.between (.settling f r)) := .move (.settle hc ho)
        exact settled.trans (leads_awaitedOnce S f.group.pgid _ s)

/-- A wait just begun is a run of both threads, on a system that is patient. -/
theorem leads_awaitGroup {S : System σ} (hS : S.Patient) (f : Foreground) (s : Session σ) :
    Leads (s.between (.waiting f {}))
      ((awaitGroup S f.group s).2.between (.settling f (awaitGroup S f.group s).1)) :=
  leads_awaitGroupFrom S f S.patience {} s (hS f.group s)

/-! ## Answers -/

/-- The notice that is due is given, and then the answer. -/
theorem leads_tell {s : Session σ} {t : JobTable} {notices : List Notice} {n : Option Notice} {reply : Reply}
    (ht : s.table = t) (hn : s.notices = notices ++ n.toList) :
    Leads { table := t, shell := .tell n reply, notices } (s.between .ready) := by
  have answered : ∀ ns, Leads { table := t, shell := .answering reply, notices := ns } { table := t, notices := ns } :=
    fun _ => .move (.answer reply)
  rw [Session.between, Session.state, ht, hn]
  cases n with
  | none =>
    rw [Option.toList_none, List.append_nil]
    exact answered notices
  | some n => exact Leads.trans (.step (.announce rfl)) (answered _)

/-- A group that ended in the foreground is recorded, and its operation is over. -/
theorem leads_markFinished (S : System σ) (f : Foreground) (status : ExitStatus) (s : Session σ) :
    Leads (s.between (.settling f (.ok (.finished status)))) ((Act.markFinished S f.group.pgid status s).2.between .ready) := by
  obtain ⟨ht, hn⟩ := changeTable_apply S (·.markFinished f.group.pgid status) s
  exact Leads.trans (.change (.finish rfl)) (leads_tell ht hn)

/-- A group that stopped in the foreground is recorded, and its operation is over. -/
theorem leads_trackStopped (S : System σ) (f : Foreground) (signal : Signal) (live : Nat) (s : Session σ) :
    Leads (s.between (.settling f (.ok (.stopped signal live))))
      ((trackStopped S f.group.pgid f.command live f.members s).2.between .ready) := by
  obtain ⟨ht, hn⟩ := trackStopped_apply S f.group.pgid f.command live f.members s
  exact Leads.trans (.change (.suspend rfl)) (leads_tell ht hn)

end SessionsAux

open SessionsAux

/-- To continue a job in the foreground is a run of both threads. -/
theorem leads_bringToForeground {S : System σ} (hS : S.Patient) (id : JobId) (s : Session σ) :
    Leads (s.between .ready) ((bringToForeground S id s).2.between .ready) := by
  rw [bringToForeground, bind_apply, get_apply]
  have locked : Leads (s.between .ready) (s.state (.claiming id) .resting (some .shell)) :=
    Leads.trans (.move (.foreground id)) (.step (.lock rfl rfl))
  refine locked.trans ?_
  cases hc : s.table.claim? id with
  | none =>
    have unlocked : Leads (s.state (.claiming id) .resting (some .shell))
        (s.between (.answering (.broughtToForeground (.error (.notFound id))))) :=
      Leads.trans (.move (.claimNone hc)) (.step (.unlock (c := none) rfl))
    exact unlocked.trans (.move (.answer _))
  | some claimed =>
    obtain ⟨t, c⟩ := claimed
    have unlocked : Leads (s.state (.claiming id) .resting (some .shell))
        (Session.between { s with table := t } (.continuing id c)) :=
      Leads.trans (.change (.claim hc)) (.step (.unlock (c := some c) rfl))
    refine unlocked.trans ?_
    dsimp only
    rw [bind_apply, modify_apply, bind_apply, bind_apply, ← between_of_quiet (quiet_giveTerminal S c.group.pgid),
      ← between_of_quiet (quiet_ask (S.signalGroup c.group.pgid .cont))]
    generalize ask (S.signalGroup c.group.pgid .cont) _ = q
    obtain ⟨r, s⟩ := q
    dsimp only
    cases r with
    | error cause =>
      dsimp only
      rw [bind_apply, bind_apply, ← between_of_quiet (quiet_reclaimTerminal S) s]
      generalize (reclaimTerminal S s).2 = s
      have failed : Leads (s.between (.continuing id c)) (s.between (.restoring id c cause)) := .move (.notContinued id c cause)
      exact failed.trans (Leads.trans (.change (.restore _ id c cause)) (.move (.answer _)))
    | ok =>
      have waited : Leads (s.between (.continuing id c))
          ((awaitGroup S c.group s).2.between (.settling (.ofClaim id c) (awaitGroup S c.group s).1)) :=
        Leads.trans (.move (.continued id c)) (leads_awaitGroup hS (.ofClaim id c) s)
      refine waited.trans ?_
      dsimp only
      rw [bind_apply, bind_apply]
      generalize awaitGroup S c.group s = q
      obtain ⟨r, s⟩ := q
      rw [← between_of_quiet (quiet_reclaimTerminal S) s]
      generalize (reclaimTerminal S s).2 = s
      dsimp only
      rcases r with cause | (status | ⟨signal, live⟩)
      · exact Leads.trans (.change (.giveUp _ _ cause)) (.move (.answer _))
      · exact leads_markFinished S (.ofClaim id c) status s
      · exact leads_trackStopped S (.ofClaim id c) signal live s

/-- To continue a job in the background is a run of the shell. -/
theorem leads_sendToBackground (S : System σ) (id : JobId) (s : Session σ) :
    Leads (s.between .ready) ((sendToBackground S id s).2.between .ready) := by
  rw [sendToBackground, bind_apply, get_apply]
  dsimp only
  cases hf : s.table.find? id with
  | none => exact Leads.trans (.move (.backgroundNone hf)) (.move (.answer _))
  | some j =>
    have begun : Leads (s.between .ready) (s.between (.signalling id j.pgid)) := .move (.background hf)
    refine begun.trans ?_
    dsimp only
    rw [bind_apply, ← between_of_quiet (quiet_ask (S.signalGroup j.pgid .cont)) s]
    generalize ask (S.signalGroup j.pgid .cont) s = q
    obtain ⟨r, s⟩ := q
    dsimp only
    cases r with
    | error cause => exact Leads.trans (.move (.notSignalled id j.pgid cause)) (.move (.answer _))
    | ok =>
      have signalled : Leads (s.between (.signalling id j.pgid)) (s.between (.resuming id)) := .move (.signalled id j.pgid)
      refine signalled.trans ?_
      dsimp only
      rw [bind_apply, get_apply]
      dsimp only
      cases hr : s.table.resume? id with
      | none => exact Leads.trans (.move (.resumeNone hr)) (.move (.answer _))
      | some resumed =>
        obtain ⟨t, n⟩ := resumed
        obtain ⟨ht, hn⟩ := announce_apply S n { s with table := t }
        exact Leads.trans (.change (.resume hr)) (leads_tell (n := some n) ht hn)

/-- To send a signal to a job is a run of the shell. -/
theorem leads_killJob (S : System σ) (id : JobId) (signal : Signal) (s : Session σ) :
    Leads (s.between .ready) ((killJob S id signal s).2.between .ready) := by
  rw [killJob, bind_apply, get_apply]
  dsimp only
  cases hf : s.table.find? id with
  | none => exact Leads.trans (.move (@ShellPoint.Moves.killNone _ id signal hf)) (.move (.answer _))
  | some j =>
    have begun : Leads (s.between .ready) (s.between (.killing id j.pgid signal (j.state = .stopped && signal.endsJob))) :=
      .move (.kill hf)
    refine begun.trans ?_
    dsimp only
    rw [bind_apply, ← between_of_quiet (quiet_ask (S.signalGroup j.pgid signal)) s]
    generalize ask (S.signalGroup j.pgid signal) s = q
    obtain ⟨r, s⟩ := q
    dsimp only
    cases r with
    | error cause => exact Leads.trans (.move (.notKilled _ _ _ _ cause)) (.move (.answer _))
    | ok =>
      have sent : Leads (s.between (.killing id j.pgid signal (j.state = .stopped && signal.endsJob)))
          (s.between (if j.state = .stopped && signal.endsJob then .reviving j.pgid else .answering (.killed (.ok ())))) :=
        .move (.killed ..)
      refine sent.trans ?_
      dsimp only
      split
      · rw [bind_apply, ← between_of_quiet (quiet_ask (S.signalGroup j.pgid .cont)) s]
        generalize ask (S.signalGroup j.pgid .cont) s = q
        obtain ⟨r, s⟩ := q
        exact Leads.trans (.move (.revived j.pgid r)) (.move (.answer _))
      · exact .move (.answer _)

/-- To wait for a pipeline just launched is a run of both threads. -/
theorem leads_awaitForeground {S : System σ} (hS : S.Patient) (l : Launched) (command : String) (s : Session σ) :
    Leads (s.between (.launched l command false))
      ((awaitForeground S l s).2.between (.settling (.ofLaunched l command) (awaitForeground S l s).1)) := by
  rw [awaitForeground, bind_apply, bind_apply, bind_apply, ← between_of_quiet (quiet_giveTerminal S l.pgid) s]
  generalize (giveTerminal S l.pgid s).2 = s
  have begun : Leads (s.between (.launched l command false)) (s.between (.waiting (.ofLaunched l command) {})) :=
    .move (.begin l command)
  refine (begun.trans (leads_awaitGroup hS (.ofLaunched l command) s)).trans ?_
  rw [← between_of_quiet (quiet_reclaimTerminal S)]
  exact .refl _

/-- To launch a pipeline, and to see it through or to register it, is a run of both threads. -/
theorem leads_runProcesses {S : System σ} (hS : S.Patient) (x : Executor) (p : Pipeline) (command : String) (s : Session σ) :
    Leads (s.between .ready) ((runProcesses S x p command s).2.between .ready) := by
  rw [runProcesses, bind_apply, ← between_of_quiet (quiet_launch S x.name p) s]
  generalize launch S x.name p s = q
  obtain ⟨r, s⟩ := q
  dsimp only
  cases r with
  | error e =>
    dsimp only
    rw [bind_apply, ← between_of_quiet (quiet_report S x e) s]
    exact .refl _
  | ok l =>
    dsimp only
    have launched : Leads (s.between .ready) (s.between (.launched l command p.background)) := .move (.launch ..)
    refine launched.trans ?_
    cases p.background with
    | true =>
      rw [if_pos rfl, bind_apply, get_apply]
      dsimp only
      rw [bind_apply, modify_apply, bind_apply]
      obtain ⟨ht, hn⟩ := announce_apply S (.started (s.table.addPipeline l.pgid command true l.pids).2 l.pgid command)
        { s with table := (s.table.addPipeline l.pgid command true l.pids).1 }
      exact Leads.trans (.change (.enlist rfl)) (leads_tell (n := some _) ht hn)
    | false =>
      rw [if_neg nofun, bind_apply]
      refine (leads_awaitForeground hS l command s).trans ?_
      generalize awaitForeground S l s = q
      obtain ⟨r, s⟩ := q
      dsimp only
      rcases r with cause | (status | ⟨signal, live⟩)
      · dsimp only
        rw [bind_apply, ← between_of_quiet (quiet_report S x (.wait cause)) s]
        exact Leads.trans (.change (.giveUp _ _ cause)) (.move (.answer _))
      · exact leads_markFinished S (.ofLaunched l command) status s
      · exact leads_trackStopped S (.ofLaunched l command) signal live s

end JobShell
