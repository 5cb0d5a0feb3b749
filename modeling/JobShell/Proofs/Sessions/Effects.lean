import JobShell.Proofs.Launches.Journal
import JobShell.Proofs.Sessions.Announcements
import JobShell.Proofs.Sessions.FailedOperations
import JobShell.Proofs.Sessions.GroupWaits
import JobShell.Proofs.Sessions.HandOvers
import JobShell.Proofs.Sessions.Passes
import Mathlib.Data.List.Perm.Subperm

/-!
# What running a line does

A line is run in one of a few ways: not at all where it is empty, in the shell itself where it is a builtin, and otherwise as children.
Then the launch may fail, or the children go on in the background, or they finish in the foreground, or one of them stops there.
`effects_of_execute` says for each of these ways what becomes of the job table, the notices, the terminal and the children, and that
everything else in them is as it was.

While the shell waits for a pipeline in the foreground, the collector may have its turns and account for other jobs. So the table is as
it was but for its changes (`Session.Accounted`), and where there is no collector it is the very same. That it leaves the pipeline alone
rests on the group of the pipeline having no job.

Of the system it is used that it tells the end of each process of the group once, and that there are no children only once all have
ended (`TellsOf`).
-/

namespace JobShell

open Act SessionsAux

variable {σ : Type} {S : System σ}

/-- The foreground wait for a pipeline: for all of its processes, and for the status of the last. -/
def Launched.wait (l : Launched) : GroupWait := { pgid := l.pgid, expected := l.pids.length, statusPid := l.pids.getLast? }

/-- The results are what a system may tell of a group of these processes, which are all different: the end of each at most once and of
nothing else, no failure but an interruption, and that there are no children only after all have ended. -/
structure TellsOf (members : List Pid) (rs : List WaitResult) : Prop where
  distinct : members.Nodup
  once : ((departuresIn rs).map Prod.fst).Nodup
  own : ∀ e ∈ departuresIn rs, e.1 ∈ members
  failures : ∀ before e after, rs = before ++ .error e :: after →
    e = .interrupted ∨ e = .noChild ∧ ∀ pid ∈ members, pid ∈ (departuresIn before).map Prod.fst

/-- What becomes of a pipeline that is launched in the background: it is a running job with the next number, and this is announced. -/
structure Begun (command : String) (l : Launched) (s : Session σ) (code : Int) (s' : Session σ) : Prop where
  code : code = 0
  lastId : s'.table.lastId = s.table.lastId + 1
  jobs : s'.table.jobs = s.table.jobs ++
    [{ id := s.table.lastId + 1, pgid := l.pgid, command, state := .running, background := true, live := l.pids.length
       members := l.pids, waited := false }]
  notices : s'.notices = s.notices ++ [.started (s.table.lastId + 1) l.pgid command]
  terminal : s'.terminal = s.terminal

/-- What becomes of a pipeline that finishes in the foreground, while the collector made these changes: there is no trace of it, and its
status is the one that its last process ended with. -/
structure SeenThrough (l : Launched) (cs : List JobTable.Change) (exit : ExitStatus) (s : Session σ) (code : Int) (s' : Session σ) :
    Prop where
  code : code = exit.code
  accounted : s.Accounted cs s'
  terminal : s'.terminal = s.terminal ++ [.giveTo l.pgid, .reclaim]

/-- What becomes of a pipeline that stops in the foreground, while the collector made these changes: it is a stopped job with the next
number, and this is announced. -/
structure Suspended (command : String) (l : Launched) (cs : List JobTable.Change) (signal : Signal) (live : Nat) (s : Session σ)
    (code : Int) (s' : Session σ) : Prop where
  code : code = 128 + signal.number
  lastId : s'.table.lastId = s.table.lastId + 1
  jobs : s'.table.jobs = (s.table.applyAll cs).1.jobs ++
    [{ id := s.table.lastId + 1, pgid := l.pgid, command, state := .stopped, background := false, live, members := l.pids
       waited := false }]
  notices : s'.notices = s.notices ++ (s.table.applyAll cs).2 ++ [.stopped (s.table.lastId + 1) command]
  terminal : s'.terminal = s.terminal ++ [.giveTo l.pgid, .reclaim]

/-- How a pipeline in the foreground comes to its end, when the waits for its group are answered like this: once all of its processes have
ended it is seen through, unless one of them stops before. -/
inductive Concluded (command : String) (l : Launched) (cs : List JobTable.Change) (rs : List WaitResult) (s : Session σ) (code : Int)
    (s' : Session σ) : Prop
  | finished {last : Pid} {exit : ExitStatus} (all : (l.wait.departures rs).length = l.pids.length)
    (is_last : l.pids.getLast? = some last) (ended : (last, exit) ∈ l.wait.departures rs) (through : SeenThrough l cs exit s code s') :
    Concluded command l cs rs s code s'
  | stopped {pid : Pid} {signal : Signal} {live : Nat} (first : rs.find? WaitResult.isDecisive = some (.ok (.stopped pid signal)))
    (left : live + (l.wait.departures rs).length = l.pids.length) (some_left : 1 ≤ live)
    (suspended : Suspended command l cs signal live s code s') : Concluded command l cs rs s code s'

namespace EffectsAux

open JobTable Session GroupWaitsAux FailedOperationsAux QuietAux PassesAux AnnouncementsAux JournalAux

/-! ## The table -/

variable {t : JobTable} {pgid : Pid} {cs : List Change}

/-- The changes of the collector give no number. -/
theorem lastId_applyAll (t : JobTable) (cs : List Change) : (t.applyAll cs).1.lastId = t.lastId := by
  induction cs generalizing t with
  | nil => rfl
  | cons c cs ih => rw [applyAll_cons, ih, lastId_apply]

/-- The changes of the collector register no group. -/
theorem untracked_applyAll (h : t.WellFormed) (hu : t.Untracked pgid) (cs : List Change) : (t.applyAll cs).1.Untracked pgid := by
  intro j hj
  rcases (Evolves.applyAll h cs).jobs j hj with ⟨k, hk, same⟩ | new
  · have group : k.pgid = j.pgid := congrArg (fun i => i.2.1) same
    rw [← group]
    exact hu k hk
  · obtain ⟨k, hk, same⟩ := id_of_applyAll hj
    have issued := (h.issued k hk).2
    rw [same] at issued
    exact absurd new (Nat.not_lt.2 issued)

/-- A group that has no job stops: it is registered with the next number, and this is news. -/
theorem trackStopped_new (h : t.WellFormed) (hu : t.Untracked pgid) (command : String) (live : Nat) (members : List Pid) :
    t.trackStopped pgid command live members =
      ({ lastId := t.lastId + 1
         jobs := t.jobs ++
           [{ id := t.lastId + 1, pgid, command, state := .stopped, background := false, live, members, waited := false }] },
        t.lastId + 1, some (.stopped (t.lastId + 1) command)) := by
  have older : ∀ j ∈ t.jobs, j.id ≠ t.lastId + 1 := by
    exact fun j hj => Nat.ne_of_lt (Nat.lt_succ_of_le (h.issued j hj).2)
  have kept : ∀ change : Job → Job, t.jobs.map (fun j => if j.id = t.lastId + 1 then change j else j) = t.jobs := by
    intro change
    refine (List.map_congr_left fun j hj => ?_).trans (List.map_id _)
    simp [older j hj]
  have unfound : t.jobs.find? (·.id == t.lastId + 1) = none := by
    rw [List.find?_eq_none]
    intro j hj
    simp [older j hj]
  rw [trackStopped_of_none ((ofGroup?_eq_none_iff h).2 hu)]
  simp [JobTable.insert, JobTable.modify, JobTable.find?, List.find?_append, unfound]
  exact kept _

/-! ## The wait -/

variable {s s' : Session σ} {rs : List WaitResult} {R : Session σ → Session σ → Prop}

/-- One wait asks the system, and after it the collector may have its turn. -/
theorem of_awaitedOnce {r : WaitResult} {s₁ : Session σ} (h : awaitedOnce S pgid s = (r, s₁)) :
    s₁ = (ask (S.await pgid) s).2 ∨ s₁ = (serveCollector S (ask (S.await pgid) s).2).2 := by
  unfold awaitedOnce at h
  generalize ask (S.await pgid) s = q at h ⊢
  obtain ⟨r', s₂⟩ := q
  dsimp only at h
  split at h
  · cases h
    exact .inr rfl
  · cases h
    exact .inl rfl

/-- Answered waits stay within a frame if each wait on the group does. -/
theorem within_answered (h : WaitFrame S R) (hw : Within R (ask (S.await pgid))) (hs : AnsweredWith S pgid rs s s') : R s s' := by
  induction hs with
  | nil s => exact h.refl s
  | @cons r rs s s₁ s' once rest ih =>
    refine h.trans ?_ ih
    rcases of_awaitedOnce once with rfl | rfl
    · exact hw s
    · exact h.trans (hw s) (h.serveCollector _)

/-- A turn of the collector changes the table as it does; where there is no collector, there is no turn. -/
theorem accounted_serveCollector (s : Session σ) :
    ∃ cs, s.Accounted cs (serveCollector S s).2 ∧ (s.collector = none → cs = [] ∧ (serveCollector S s).2.collector = none) := by
  cases hc : s.collector with
  | none =>
    rw [serveCollector_of_none hc]
    exact ⟨[], accounted_nil rfl rfl, fun _ => ⟨rfl, hc⟩⟩
  | some c =>
    obtain ⟨cs, table, notices⟩ := collects_collectPass (S := S) s
    rw [serveCollector, bind_apply, get_apply, hc]
    dsimp only
    rw [bind_apply]
    split
    · exact ⟨cs, ⟨table, notices⟩, by simp⟩
    · exact ⟨[], accounted_nil rfl rfl, by simp⟩

/-- While the shell waits, the table changes by turns of the collector only, and not at all where there is none. -/
theorem accounted_answered (hs : AnsweredWith S pgid rs s s') :
    ∃ cs, s.Accounted cs s' ∧ (s.collector = none → cs = [] ∧ s'.collector = none) := by
  induction hs with
  | nil s => exact ⟨[], accounted_nil rfl rfl, fun hc => ⟨rfl, hc⟩⟩
  | @cons r rs s s₁ s' once rest ih =>
    obtain ⟨cs, accounted, none⟩ : ∃ cs, s.Accounted cs s₁ ∧ (s.collector = none → cs = [] ∧ s₁.collector = none) := by
      rcases of_awaitedOnce once with rfl | rfl
      · exact ⟨[], accounted_nil rfl rfl, fun hc => ⟨rfl, hc⟩⟩
      · exact accounted_serveCollector (ask (S.await pgid) s).2
    obtain ⟨ds, accounted', none'⟩ := ih
    refine ⟨cs ++ ds, accounted_append accounted accounted', fun hc => ?_⟩
    obtain ⟨rfl, hc⟩ := none hc
    obtain ⟨rfl, hc⟩ := none' hc
    exact ⟨rfl, hc⟩

/-- What is answered leaves the requests to the terminal. -/
theorem terminal_answered (hs : AnsweredWith S pgid rs s s') : s'.terminal = s.terminal :=
  within_answered (R := fun s s' => s'.terminal = s.terminal) (Recorder.ofTerminal S).sessionFrame.toWaitFrame (fun _ => rfl) hs

/-! ## What was told -/

variable {members : List Pid} {g : GroupWait}

/-- The ends that count are among those that are told. -/
theorem departures_sublist (g : GroupWait) (rs : List WaitResult) : (g.departures rs).Sublist (departuresIn rs) :=
  (List.take_sublist _ _).trans ((List.takeWhile_sublist _).filterMap _)

/-- No process ends twice. -/
theorem departures_once (h : TellsOf members rs) : ((g.departures rs).map Prod.fst).Nodup :=
  h.once.sublist ((departures_sublist g rs).map _)

/-- Where as many ends count as there are processes, each of them has ended. -/
theorem mem_departures (h : TellsOf members rs) (all : (g.departures rs).length = members.length) {pid : Pid} (hp : pid ∈ members) :
    pid ∈ (g.departures rs).map Prod.fst := by
  have own : (g.departures rs).map Prod.fst ⊆ members := by
    intro q hq
    obtain ⟨e, he, rfl⟩ := List.mem_map.1 hq
    exact h.own e ((departures_sublist g rs).subset he)
  have same : ((g.departures rs).map Prod.fst).Perm members :=
    (List.Nodup.subperm (departures_once h) own).perm_of_length_le (by rw [List.length_map, all])
  exact same.mem_iff.2 hp

/-- The status of a wait for the status of a process is the one that it ended with. -/
theorem statusOf_eq {ends : List (Pid × ExitStatus)} {pid : Pid} {exit : ExitStatus} (once : (ends.map Prod.fst).Nodup)
    (hs : g.statusPid = some pid) (he : (pid, exit) ∈ ends) : g.statusOf ends = exit := by
  unfold GroupWait.statusOf
  rw [hs]
  cases hl : (ends.filter fun e => (some pid).all (· == e.1)).getLast? with
  | none =>
    rw [List.getLast?_eq_none_iff, List.filter_eq_nil_iff] at hl
    exact absurd (by simp) (hl _ he)
  | some e =>
    obtain ⟨mem, same⟩ := List.mem_filter.1 (List.mem_of_getLast? hl)
    have same : pid = e.1 := by simpa using same
    have found : e = (pid, exit) := List.inj_on_of_nodup_map once mem he same.symm
    rw [found]
    rfl

/-- Where a group is waited for that is told of like this, there are no children only after all of it have ended, and nothing else
fails. So the wait finishes with all of them, or one stops before. -/
theorem comesTo_cases (h : TellsOf members rs) (hg : g.expected = members.length) {out : Except Errno ForegroundOutcome}
    (comes : g.ComesTo rs out) :
    ((g.departures rs).length = g.expected ∧ out = .ok (.finished (g.statusOf (g.departures rs)))) ∨
      ∃ pid signal, rs.find? WaitResult.isDecisive = some (.ok (.stopped pid signal)) ∧
        (g.departures rs).length < g.expected ∧ out = .ok (.stopped signal (g.expected - (g.departures rs).length)) := by
  -- What decides the wait comes after results that do not.
  have split {r : WaitResult} (first : rs.find? WaitResult.isDecisive = some r) :
      ∃ before after, rs = before ++ r :: after ∧ r.isDecisive = true ∧ g.departures rs = (departuresIn before).take g.expected := by
    obtain ⟨decisive, before, after, rfl, open_⟩ := List.find?_eq_some_iff_append.1 first
    refine ⟨before, after, rfl, decisive, ?_⟩
    rw [departures_append fun r hr => by simpa using open_ r hr]
    simp [decisive, departuresIn]
  cases comes with
  | complete all => exact .inl ⟨all, rfl⟩
  | stopped before first => exact .inr ⟨_, _, first, before, rfl⟩
  | childless before first =>
    obtain ⟨heard, after, rfl, -, counted⟩ := split first
    rcases h.failures heard .noChild after rfl with interrupted | ⟨-, ended⟩
    · cases interrupted
    · have all := (List.Nodup.subperm h.distinct ended).length_le
      rw [counted, List.length_take] at before
      rw [List.length_map] at all
      omega
  | @failed before e other first =>
    obtain ⟨heard, after, rfl, decisive, -⟩ := split first
    rcases h.failures heard e after rfl with rfl | ⟨childless, -⟩
    · cases decisive
    · exact absurd childless other

/-! ## The ways of a line -/

variable {x : Executor} {p : Pipeline} {l : Launched} {s₁ s₃ : Session σ}

/-- To launch and to write leaves the table, the notices, the terminal and the collector. -/
theorem kept_frame (S : System σ) : LaunchFrame S fun s s' =>
    s'.table = s.table ∧ s'.notices = s.notices ∧ s'.terminal = s.terminal ∧ s'.collector = s.collector where
  refl _ := ⟨rfl, rfl, rfl, rfl⟩
  trans := by
    rintro s s' s'' ⟨table, notices, terminal, collector⟩ ⟨table', notices', terminal', collector'⟩
    exact ⟨table'.trans table, notices'.trans notices, terminal'.trans terminal, collector'.trans collector⟩
  environment _ _ := ⟨rfl, rfl, rfl, rfl⟩
  asked _ := ⟨rfl, rfl, rfl, rfl⟩
  forked _ _ := ⟨rfl, rfl, rfl, rfl⟩
  placed _ _ _ := ⟨rfl, rfl, rfl, rfl⟩

/-- What a launch leaves as it was. -/
theorem kept_launch {r : Except ExecError Launched} (hl : launch S x.name p s = (r, s₁)) :
    s₁.table = s.table ∧ s₁.notices = s.notices ∧ s₁.terminal = s.terminal ∧ s₁.collector = s.collector := by
  have kept := (kept_frame S).launch x.name p s
  rwa [hl] at kept

/-- A launch that fails is reported. -/
theorem runProcesses_refused {e : ExecError} (hl : launch S x.name p s = (.error e, s₁)) (command : String) :
    runProcesses S x p command s = (1, (report S x e s₁).2) := by
  rw [runProcesses, bind_apply, hl]
  rfl

/-- A pipeline that is launched in the background is registered, and this is announced. -/
theorem runProcesses_background (hl : launch S x.name p s = (.ok l, s₁)) (hb : p.background = true) (command : String) :
    runProcesses S x p command s = (0, (announce S (.started (s₁.table.lastId + 1) l.pgid command)
      { s₁ with table := (s₁.table.addPipeline l.pgid command true l.pids).1 }).2) := by
  rw [runProcesses, bind_apply, hl]
  dsimp only
  rw [if_pos hb]
  rfl

/-- A pipeline that is launched in the foreground is waited for, and then ended or recorded. -/
theorem runProcesses_foreground {out : ForegroundOutcome} (hl : launch S x.name p s = (.ok l, s₁)) (hb : p.background = false)
    (hw : awaitGroup S l.wait (giveTerminal S l.pgid s₁).2 = (.ok out, s₃)) (command : String) :
    runProcesses S x p command s = (out.code, match out with
      | .finished status => (markFinished S l.pgid status (reclaimTerminal S s₃).2).2
      | .stopped _ live => (trackStopped S l.pgid command live l.pids (reclaimTerminal S s₃).2).2) := by
  have waited : awaitForeground S l s₁ = (.ok out, (reclaimTerminal S s₃).2) := by
    unfold Launched.wait at hw
    rw [awaitForeground, bind_apply, bind_apply, hw]
    rfl
  rw [runProcesses, bind_apply, hl]
  dsimp only
  rw [if_neg (by simp [hb]), bind_apply, waited]
  cases out <;> rfl

/-- A pipeline that is launched in the background is begun. -/
theorem begun_of_launched (hl : launch S x.name p s = (.ok l, s₁)) (hb : p.background = true) (command : String) :
    Begun command l s (runProcesses S x p command s).1 (runProcesses S x p command s).2 := by
  obtain ⟨table₁, notices₁, terminal₁, -⟩ := kept_launch hl
  rw [runProcesses_background hl hb]
  generalize hs : { s₁ with table := (s₁.table.addPipeline l.pgid command true l.pids).1 } = s₂
  obtain ⟨table, notices⟩ := announce_apply S (.started (s₁.table.lastId + 1) l.pgid command) s₂
  have terminal := (Recorder.ofTerminal S).sessionFrame.announce (.started (s₁.table.lastId + 1) l.pgid command) s₂
  refine ⟨rfl, ?_, ?_, ?_, ?_⟩
  · rw [table, ← hs, ← table₁]
    rfl
  · rw [table, ← hs, ← table₁]
    rfl
  · rw [notices, ← hs, ← table₁, ← notices₁]
  · refine terminal.trans ?_
    rw [← hs]
    exact terminal₁

/-- While the shell waits for a pipeline just launched, the table changes by turns of the collector only, and its group stays without a
job. -/
theorem accounted_waited (hl : launch S x.name p s = (.ok l, s₁)) (ht : s.table.WellFormed) (hu : s.table.Untracked l.pgid)
    (hs : AnsweredWith S l.pgid rs (giveTerminal S l.pgid s₁).2 s₃) :
    ∃ cs s₄, (reclaimTerminal S s₃).2 = s₄ ∧ s.Accounted cs s₄ ∧ (s.collector = none → cs = []) ∧ s₄.table.WellFormed ∧
      s₄.table.Untracked l.pgid ∧ s₄.terminal = s.terminal ++ [.giveTo l.pgid, .reclaim] := by
  obtain ⟨table₁, notices₁, terminal₁, collector⟩ := kept_launch hl
  obtain ⟨cs, ⟨table, notices⟩, none⟩ := accounted_answered hs
  have table : s₃.table = (s.table.applyAll cs).1 := by
    rw [table]
    exact congrArg (fun t => (t.applyAll cs).1) table₁
  refine ⟨cs, _, rfl, ⟨table, ?_⟩, fun hc => (none (collector.trans hc)).1, ?_, ?_, ?_⟩
  · refine notices.trans ?_
    exact congrArg₂ (fun t ns => ns ++ (t.applyAll cs).2) table₁ notices₁
  · show s₃.table.WellFormed
    rw [table]
    exact ht.applyAll cs
  · show s₃.table.Untracked l.pgid
    rw [table]
    exact untracked_applyAll ht hu cs
  · show s₃.terminal ++ [.reclaim] = _
    rw [terminal_answered hs]
    show s₁.terminal ++ [.giveTo l.pgid] ++ [.reclaim] = _
    rw [terminal₁, List.append_assoc]
    rfl

/-- A pipeline whose wait finishes is seen through. -/
theorem seenThrough_of_finished {status : ExitStatus} (hl : launch S x.name p s = (.ok l, s₁)) (hb : p.background = false)
    (ht : s.table.WellFormed) (hu : s.table.Untracked l.pgid) (hs : AnsweredWith S l.pgid rs (giveTerminal S l.pgid s₁).2 s₃)
    (hw : awaitGroup S l.wait (giveTerminal S l.pgid s₁).2 = (.ok (.finished status), s₃)) (command : String) :
    ∃ cs, (s.collector = none → cs = []) ∧
      SeenThrough l cs status s (runProcesses S x p command s).1 (runProcesses S x p command s).2 := by
  obtain ⟨cs, s₄, reclaimed, ⟨table, notices⟩, none, wellFormed, untracked, handed⟩ := accounted_waited hl ht hu hs
  rw [runProcesses_foreground hl hb hw]
  dsimp only
  rw [reclaimed]
  -- The group has no job, so that there is nothing to end.
  have nothing : s₄.table.markFinished l.pgid status = (s₄.table, Option.none) :=
    markFinished_of_none wellFormed ((ofGroup?_eq_none_iff wellFormed).2 untracked)
  obtain ⟨table₅, notices₅⟩ := changeTable_apply S (·.markFinished l.pgid status) s₄
  rw [nothing] at table₅ notices₅
  refine ⟨cs, none, rfl, ⟨table₅.trans table, ?_⟩, ?_⟩
  · exact (notices₅.trans (List.append_nil _)).trans notices
  · exact ((Recorder.ofTerminal S).sessionFrame.markFinished l.pgid status s₄).trans handed

/-- A pipeline whose wait ends with a stop is suspended. -/
theorem suspended_of_stopped {signal : Signal} {live : Nat} (hl : launch S x.name p s = (.ok l, s₁)) (hb : p.background = false)
    (ht : s.table.WellFormed) (hu : s.table.Untracked l.pgid) (hs : AnsweredWith S l.pgid rs (giveTerminal S l.pgid s₁).2 s₃)
    (hw : awaitGroup S l.wait (giveTerminal S l.pgid s₁).2 = (.ok (.stopped signal live), s₃)) (command : String) :
    ∃ cs, (s.collector = none → cs = []) ∧
      Suspended command l cs signal live s (runProcesses S x p command s).1 (runProcesses S x p command s).2 := by
  obtain ⟨cs, s₄, reclaimed, ⟨table, notices⟩, none, wellFormed, untracked, handed⟩ := accounted_waited hl ht hu hs
  rw [runProcesses_foreground hl hb hw]
  dsimp only
  rw [reclaimed]
  have issued : s₄.table.lastId = s.table.lastId := by rw [table, lastId_applyAll]
  -- The group has no job, so that it is registered.
  have registered := trackStopped_new wellFormed untracked command live l.pids
  obtain ⟨table₅, notices₅⟩ := trackStopped_apply S l.pgid command live l.pids s₄
  rw [registered, issued] at table₅ notices₅
  refine ⟨cs, none, rfl, ?_, ?_, ?_, ?_⟩
  · rw [table₅]
  · rw [table₅, table]
  · rw [notices₅, notices]
    rfl
  · exact ((Recorder.ofTerminal S).sessionFrame.trackStopped l.pgid command live l.pids s₄).trans handed

/-- A pipeline that is waited for comes to its end, if the waits are answered as a system tells of its group. -/
theorem foreground_of_answered {s'' : Session σ} (hl : launch S x.name p s = (.ok l, s₁)) (hb : p.background = false)
    (ht : s.table.WellFormed) (hu : s.table.Untracked l.pgid) (hne : l.pids ≠ [])
    (hs : AnsweredWith S l.pgid rs (giveTerminal S l.pgid s₁).2 s'') (decided : l.wait.DecidedBy rs) (patient : rs.length < S.patience)
    (tells : TellsOf l.pids rs) (command : String) :
    ∃ cs, (s.collector = none → cs = []) ∧
      Concluded command l cs rs s (runProcesses S x p command s).1 (runProcesses S x p command s).2 := by
  obtain ⟨out, k, s₃, comes, awaited, -, answered, -⟩ := awaitGroupFrom_answered (GroupWait.Heard.start l.wait) hs decided patient
  rcases comesTo_cases tells rfl comes with ⟨all, rfl⟩ | ⟨pid, signal, first, before, rfl⟩
  · have all : (l.wait.departures rs).length = l.pids.length := all
    have is_last : l.pids.getLast? = some (l.pids.getLast hne) := List.getLast?_eq_some_getLast hne
    obtain ⟨e, mem, same⟩ := List.mem_map.1 (mem_departures tells all (List.getLast_mem hne))
    have ended : (l.pids.getLast hne, e.2) ∈ l.wait.departures rs := by
      rw [← same]
      exact mem
    have status : l.wait.statusOf (l.wait.departures rs) = e.2 := statusOf_eq (departures_once tells) is_last ended
    rw [status] at awaited
    obtain ⟨cs, none, through⟩ := seenThrough_of_finished hl hb ht hu answered awaited command
    exact ⟨cs, none, .finished all is_last ended through⟩
  · have before : (l.wait.departures rs).length < l.pids.length := before
    obtain ⟨cs, none, suspended⟩ := suspended_of_stopped hl hb ht hu answered awaited command
    exact ⟨cs, none, .stopped first (Nat.sub_add_cancel (Nat.le_of_lt before)) (Nat.sub_pos_of_lt before) suspended⟩

/-! ### Children -/

/-- After the launch no more children are asked for. -/
theorem childless_runProcesses {s s₁ : Session (σ × List LaunchCall)} {r : Except ExecError Launched}
    (hl : launch S.journaled x.name p s = (r, s₁)) (command : String) :
    Childless s₁ (runProcesses S.journaled x p command s).2 := by
  have frame := childless_frame S
  cases r with
  | error e =>
    rw [runProcesses_refused hl]
    exact frame.report x e s₁
  | ok l =>
    cases hb : p.background with
    | true =>
      rw [runProcesses_background hl hb]
      exact frame.trans (childless_of_eq rfl) (frame.announce _ _)
    | false =>
      have waited : Childless s₁ (awaitForeground S.journaled l s₁).2 := by
        have given : Within Childless (giveTerminal S.journaled l.pgid) := fun _ => childless_of_eq rfl
        have reclaimed : Within Childless (reclaimTerminal S.journaled) := fun _ => childless_of_eq rfl
        have awaited : Within Childless (awaitGroup S.journaled l.wait) :=
          frame.awaitGroupFrom (fun _ => childless_of_eq rfl) S.patience {}
        exact frame.bind given (fun _ => frame.bind awaited fun _ => frame.bind reclaimed fun _ => frame.pure _) s₁
      exact frame.trans waited (frame.settled hl hb command)

/-- A builtin asks for no child. -/
theorem childless_runBuiltin (args : List String) (b : Builtin) : Within Childless (runBuiltin S.journaled args b) := by
  have frame := childless_frame S
  refine frame.runBuiltin args b (fun _ => ?_) fun _ _ => childless_of_eq rfl
  exact frame.bringToForeground (fun _ _ => childless_of_eq rfl) (fun _ _ => childless_of_eq rfl)
    (fun _ => childless_of_eq rfl) fun _ _ => childless_of_eq rfl

/-- A stage that is run in the shell itself does what its builtin does; only what the builtin says is written after it. -/
theorem runInShell_builtin {stage : Stage} {b : Builtin} (hb : Builtin.find? x.builtins stage.program = some b) (s : Session σ) :
    (runInShell S x stage s).1 = (runBuiltin S stage.operands b s).1.code ∧
      Unrecorded (runBuiltin S stage.operands b s).2 (runInShell S x stage s).2 [] := by
  have named : runNamed S x.builtins stage = runBuiltin S stage.operands b := by
    rw [runNamed, hb]
  rw [runInShell, named, bind_apply]
  have frame := kept_frame S
  generalize runBuiltin S stage.operands b s = ran
  obtain ⟨result, s₁⟩ := ran
  obtain ⟨table, notices, terminal, -⟩ :=
    frame.bind (frame.write .out result.out) (fun _ => frame.bind (frame.write .err result.errLine) fun _ => frame.pure result.code) s₁
  exact ⟨rfl, table, notices, terminal.trans (List.append_nil _).symm⟩

/-! ### Lines -/

/-- A stage that is run in the shell itself leaves its status behind. -/
theorem execute_inShell_apply {stage : Stage} (hs : x.inShell? p = some stage) (line : String) (s : Session σ) :
    execute S x p line s =
      ((runInShell S x stage s).1, { (runInShell S x stage s).2 with lastStatus := (runInShell S x stage s).1 }) := by
  rw [execute_of_inShell S line hs]
  rfl

/-- A pipeline that is launched leaves its status behind. -/
theorem execute_launched_apply (hs : x.inShell? p = none) (hp : p.stages ≠ []) (line : String) (s : Session σ) :
    execute S x p line s = ((runProcesses S x p (p.commandText line) s).1,
      { (runProcesses S x p (p.commandText line) s).2 with lastStatus := (runProcesses S x p (p.commandText line) s).1 }) := by
  rw [execute_of_launched S line hs, if_neg (by simp [Pipeline.isEmpty, hp])]
  rfl

/-- An empty pipeline is nothing to do. -/
theorem execute_empty (hp : p.stages = []) (line : String) (s : Session σ) : execute S x p line s = (0, s) := by
  have launched : x.inShell? p = none := by simp [Executor.inShell?, Pipeline.single?, hp]
  rw [execute_of_launched S line launched, if_pos (by simp [Pipeline.isEmpty, hp])]
  rfl

/-- A pipeline is launched that is not one stage that names a builtin. -/
theorem inShell?_eq_none (hb : ∀ stage, p.stages = [stage] → Builtin.find? x.builtins stage.program = none) : x.inShell? p = none := by
  unfold Executor.inShell? Pipeline.single?
  split
  · rename_i stage hp
    simp [hb stage hp]
  · rfl

end EffectsAux

open EffectsAux JournalAux

/-- What it does to run a line, for every pipeline, every shell and every system, with a journal of the launch beside it.

An empty pipeline is nothing to do. Any other leaves its status behind. One stage that names a builtin is run in the shell: no child is
asked for, and after the builtin nothing changes. Any other pipeline is launched. If that fails, the status is 1 and nothing is
recorded. If not, there is a child for each stage, in order, and no other. In the background it becomes a job at once, and the terminal
is not asked for. In the foreground it is waited for: if all of it ends, no trace of it is left, and the status is the one of the last
stage; if one of it stops before, it becomes a job with what is left of it. -/
theorem effects_of_execute (S : System σ) (x : Executor) (p : Pipeline) (line : String) {s : Session (σ × List LaunchCall)}
    (ht : s.table.WellFormed) :
    let out := execute S.journaled x p line s
    (p.stages = [] → out = (0, s)) ∧
    (p.stages ≠ [] → out.2.lastStatus = out.1) ∧
    (∀ stage b, p.stages = [stage] → Builtin.find? x.builtins stage.program = some b →
      let ran := runBuiltin S.journaled stage.operands b s
      out.1 = ran.1.code ∧ ran.2.Unrecorded out.2 [] ∧ forksIn out.2.world.2 = forksIn s.world.2) ∧
    (p.stages ≠ [] → (∀ stage, p.stages = [stage] → Builtin.find? x.builtins stage.program = none) →
      (∀ e s₁, launch S.journaled x.name p s = (.error e, s₁) → out.1 = 1 ∧ s.Unrecorded out.2 []) ∧
      ∀ l s₁, launch S.journaled x.name p s = (.ok l, s₁) → s.table.Untracked l.pgid →
        l.pids.length = p.stages.length ∧ l.pids.head? = some l.pgid ∧
        forksIn out.2.world.2 = forksIn s.world.2 ++ p.stages.zip (l.pids.map .ok) ∧
        (p.background = true → Begun (p.commandText line) l s out.1 out.2) ∧
        (p.background = false → ∀ rs s₂, AnsweredWith S.journaled l.pgid rs (giveTerminal S.journaled l.pgid s₁).2 s₂ →
          l.wait.DecidedBy rs → rs.length < S.patience → TellsOf l.pids rs →
          ∃ cs, (s.collector = none → cs = []) ∧ Concluded (p.commandText line) l cs rs s out.1 out.2)) := by
  intro out
  refine ⟨fun hp => execute_empty hp line s, fun hp => ?_, fun stage b hp hb => ?_, fun hp hb => ?_⟩
  · show (execute S.journaled x p line s).2.lastStatus = (execute S.journaled x p line s).1
    cases hs : x.inShell? p with
    | some stage => rw [execute_inShell_apply hs]
    | none => rw [execute_launched_apply hs hp]
  · have hs : x.inShell? p = some stage := by simp [Executor.inShell?, Pipeline.single?, hp, hb]
    have executed : out = _ := execute_inShell_apply hs line s
    obtain ⟨code, table, notices, terminal⟩ := runInShell_builtin (S := S.journaled) hb s
    have childless : Childless s (runInShell S.journaled x stage s).2 :=
      (childless_frame S).runInShell x stage (fun b' _ => childless_runBuiltin stage.operands b') s
    rw [executed]
    exact ⟨code, ⟨table, notices, terminal⟩, childless.forks⟩
  · have executed : out = _ := execute_launched_apply (inShell?_eq_none hb) hp line s
    rw [executed]
    refine ⟨fun e s₁ hl => ?_, fun l s₁ hl hu => ?_⟩
    · obtain ⟨table, notices, terminal, -⟩ := kept_launch hl
      obtain ⟨table', notices', terminal', -⟩ := (kept_frame S.journaled).report x e s₁
      rw [runProcesses_refused hl]
      refine ⟨rfl, table'.trans table, notices'.trans notices, ?_⟩
      exact (terminal'.trans terminal).trans (List.append_nil _).symm
    · obtain ⟨forks, count, leader⟩ := launch_forks hl
      refine ⟨count, leader, ?_, fun background => ?_, fun foreground rs s₂ answered decided patient tells => ?_⟩
      · exact (childless_runProcesses hl _).forks.trans forks
      · obtain ⟨code, lastId, jobs, notices, terminal⟩ := begun_of_launched hl background (p.commandText line)
        exact ⟨code, lastId, jobs, notices, terminal⟩
      · have some_pids : l.pids ≠ [] := by
          intro none
          rw [none] at leader
          cases leader
        obtain ⟨cs, none, concluded⟩ :=
          foreground_of_answered hl foreground ht hu some_pids answered decided patient tells (p.commandText line)
        refine ⟨cs, none, ?_⟩
        cases concluded with
        | finished all is_last ended through =>
          exact .finished all is_last ended ⟨through.code, through.accounted, through.terminal⟩
        | stopped first left some_left suspended =>
          obtain ⟨code, lastId, jobs, notices, terminal⟩ := suspended
          exact .stopped first left some_left ⟨code, lastId, jobs, notices, terminal⟩

/-- With a journal beside it, a system recites its list as before. -/
theorem recites_journaled {left : σ → List WaitResult} (h : S.Recites left) : S.journaled.Recites fun w => left w.1 where
  await pgid {w r rest} hw := h.await pgid hw
  asked asked := by cases asked <;> exact h.asked (by constructor)

/-- Two stages are launched in the foreground. The last ends with 3, and after it the first is ended by a signal: the status is 3, and no
trace is left. -/
theorem effects_of_execute_counting :
    let rs : List WaitResult := [.error .interrupted, .ok (.exited 6 3), .ok (.signaled 5 .term false)]
    let s : Session (((Unit × Nat) × List WaitResult) × List LaunchCall) := { world := ((((), 3), rs), []) }
    let out := execute System.counting.reciting.journaled {} { stages := [⟨"ls", []⟩, ⟨"wc", []⟩] } "ls | wc" s
    out.1 = 3 ∧ out.2.lastStatus = 3 ∧ out.2.table = {} ∧ out.2.notices = [] ∧ out.2.terminal = [.giveTo 5, .reclaim] := by
  intro rs s
  have effects := effects_of_execute System.counting.reciting {} { stages := [⟨"ls", []⟩, ⟨"wc", []⟩] } "ls | wc" (s := s)
    JobTable.wellFormed_empty
  have made : (launch System.counting.reciting.journaled "chirsh" { stages := [⟨"ls", []⟩, ⟨"wc", []⟩] } s).1 = .ok ⟨5, [5, 6]⟩ := by
    decide +kernel
  have recited : (launch System.counting.reciting.journaled "chirsh" { stages := [⟨"ls", []⟩, ⟨"wc", []⟩] } s).2.world.1.2 = rs := by
    decide +kernel
  generalize execute System.counting.reciting.journaled {} { stages := [⟨"ls", []⟩, ⟨"wc", []⟩] } "ls | wc" s = out at effects ⊢
  generalize hl : launch System.counting.reciting.journaled "chirsh" { stages := [⟨"ls", []⟩, ⟨"wc", []⟩] } s = q at made recited
  obtain ⟨_, s₁⟩ := q
  obtain rfl := made
  obtain ⟨-, remembered, -, launched⟩ := effects
  have decided : (Launched.wait ⟨5, [5, 6]⟩).departures rs = [(6, .exited 3), (5, .signaled 15)] := by decide
  have tells : TellsOf [5, 6] rs := by
    refine ⟨by decide, by decide, by decide, fun before e after h => .inl ?_⟩
    have mem : Except.error e ∈ rs := by
      rw [h]
      simp
    simpa [rs] using mem
  obtain ⟨s₂, answered⟩ := answeredWith_of_recites (recites_journaled (recites_reciting System.counting)) 5 rs []
    (giveTerminal System.counting.reciting.journaled 5 s₁).2 (recited.trans (List.append_nil rs).symm)
  obtain ⟨-, launched⟩ := launched (by simp) (by simp)
  obtain ⟨-, -, -, -, foreground⟩ := launched ⟨5, [5, 6]⟩ s₁ hl nofun
  obtain ⟨cs, none, concluded⟩ := foreground rfl rs s₂ answered (.inl (by rw [decided]; rfl)) (by decide) tells
  obtain rfl := none rfl
  cases concluded with
  | stopped first => cases first
  | @finished last exit all is_last ended through =>
    obtain ⟨code, ⟨table, notices⟩, terminal⟩ := through
    obtain rfl : last = 6 := by simpa using is_last.symm
    obtain rfl : exit = .exited 3 := by simpa [decided] using ended
    exact ⟨code, (remembered (by simp)).trans code, table, notices, terminal⟩

end JobShell
