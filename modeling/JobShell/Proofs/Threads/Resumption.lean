import JobShell.Proofs.JobTable.Marks
import JobShell.Proofs.Threads.Histories
import JobShell.Proofs.Threads.Invariants

/-!
# A job that goes on in the background

To continue a job in the background, the shell looks it up, signals it and records that it goes on, and the collector may record
changes of its own in between. `resumption_in_order` compares what comes of this with the order in which the shell would have
recorded first (`JobTable.resumed`). When the job is still there to be recorded, the same jobs are left and the same ends are
announced, and only the state of this one job can differ.

A signal that fails and a job that is gone are not recorded at all (`resumption_not_first`): the operation then fails and changes
nothing.
-/

namespace JobShell

/-- The change of the table that the collector made. -/
def Event.change? : Event → Option JobTable.Change
  | .record r => some (.report r)
  | .conclude pgid => some (.conclusion pgid)
  | _ => none

/-- The changes of the table that the collector made, the first one first. -/
def changesIn (es : List Event) : List JobTable.Change := (es.filterMap Event.change?).reverse

/-- The notice that the shell gave. -/
def Event.announced? : Event → Option Notice
  | .announce n => some n
  | _ => none

/-- The notices that the shell gave, the newest first. -/
def announcedIn (es : List Event) : List Notice := es.filterMap Event.announced?

/-- The notice that the collector is about to give. -/
def CollectorPoint.pending : CollectorPoint → List Notice
  | .informing n _ => [n]
  | _ => []

/-- The notices of ends that were given, and the one that the collector is about to give. -/
def State.ends (s : State) : List Notice := (s.notices ++ s.collector.pending).filter Notice.isEnd

/-- What these events did is what the collector did in them: the shell recorded and announced nothing. -/
structure Untouched (s : State) (new : List Event) (s' : State) : Prop where
  table : s'.table = (s.table.applyAll (changesIn new)).1
  ends : s'.ends = s.ends ++ (s.table.applyAll (changesIn new)).2.filter Notice.isEnd
  silent : announcedIn new = []

/-- The job was found, and recorded as one that goes on, between the early changes of the collector and the late ones. -/
structure Recorded (s : State) (id : JobId) (j : Job) (early late : List Event) (s' : State) : Prop where
  found : (s.table.applyAll (changesIn early)).1.find? id = some j
  table : s'.table = (((s.table.applyAll (changesIn early)).1.resumed id).applyAll (changesIn late)).1
  ends : s'.ends = s.ends ++ (s.table.applyAll (changesIn early)).2.filter Notice.isEnd ++
    (((s.table.applyAll (changesIn early)).1.resumed id).applyAll (changesIn late)).2.filter Notice.isEnd

/-- The table and the notices, had the shell recorded first and the collector made its changes then. -/
def State.resumedFirst (s : State) (id : JobId) (new : List Event) : JobTable × List Notice :=
  (s.table.resumed id).applyAll (changesIn new)

/-- How far the shell has come, since it looked the job up in the state `s`. -/
inductive Phase (s : State) (id : JobId) (pgid : Pid) (new : List Event) (s' : State) : Prop
  | signalling (at_ : s'.shell = .signalling id pgid) (untouched : Untouched s new s')
  | resuming (at_ : s'.shell = .resuming id) (untouched : Untouched s new s')
  | announcing {early late : List Event} {j : Job}
    (at_ : s'.shell = .announcing (.resumed id j.command) (.sentToBackground (.ok ())))
    (split : new = late ++ .resume id :: early) (recorded : Recorded s id j early late s') (silent : announcedIn new = [])
  | resumed {early late : List Event} {j : Job} (at_ : s'.shell = .answering (.sentToBackground (.ok ())))
    (split : new = late ++ .resume id :: early) (recorded : Recorded s id j early late s')
    (told : announcedIn new = [.resumed id j.command])
  | refused {cause : Errno} (at_ : s'.shell = .answering (.sentToBackground (.error (.signal id cause))))
    (signal : .signal pgid .cont (.error cause) ∈ new) (untouched : Untouched s new s')
  | missed {early late : List Event} (at_ : s'.shell = .answering (.sentToBackground (.error (.notFound id))))
    (split : new = late ++ .resume id :: early) (gone : (s.table.applyAll (changesIn early)).1.find? id = none)
    (untouched : Untouched s new s')

namespace ResumptionAux

open JobTable

variable {s s' s'' : State} {id : JobId} {pgid : Pid} {new early late : List Event} {e : Event} {j : Job}

/-- The changes with one more event. -/
theorem changesIn_cons (e : Event) (es : List Event) : changesIn (e :: es) = changesIn es ++ e.change?.toList := by
  cases he : e.change? <;> simp [changesIn, he]

/-- The changes in two parts. -/
theorem changesIn_append (es fs : List Event) : changesIn (es ++ fs) = changesIn fs ++ changesIn es := by
  simp [changesIn, List.filterMap_append]

/-- What the shell announced, with one more event. -/
theorem announcedIn_cons (e : Event) (es : List Event) : announcedIn (e :: es) = e.announced?.toList ++ announcedIn es := by
  cases he : e.announced? <;> simp [announcedIn, he]

/-- A step of the collector makes the change that the event tells of, with the notices that are due, and leaves the shell where it
stands. -/
structure Collects (s : State) (e : Event) (s' : State) : Prop where
  shell : s'.shell = s.shell
  table : s'.table = (s.table.applyAll e.change?.toList).1
  ends : s'.ends = s.ends ++ (s.table.applyAll e.change?.toList).2.filter Notice.isEnd
  silent : e.announced? = none

/-- The notice of a change is on its way when the collector tells of it. -/
theorem pending_tell (n : Option Notice) (work : List Pid) : (CollectorPoint.tell n work).pending = n.toList := by
  cases n <;> rfl

/-- The collector gives no notice where it waits on a group. -/
theorem pending_afterPoll (pgid : Pid) (rest : List Pid) (result : WaitResult) :
    (CollectorPoint.afterPoll pgid rest result).pending = [] := by
  rcases CollectorPoint.afterPoll_cases pgid rest result with h | ⟨-, h⟩ | ⟨w, -, h⟩ | ⟨-, h⟩ <;> rw [h] <;> rfl

/-- One change is made as several are. -/
theorem applyAll_single (t : JobTable) (c : Change) : t.applyAll [c] = ((t.apply c).1, (t.apply c).2.toList) := by
  rw [applyAll_cons]
  simp [applyAll]

/-- A step is one of the collector, or one of the shell that leaves the collector where it stands. -/
theorem collects_or_shell (h : Step s e s') :
    Collects s e s' ∨ s'.collector = s.collector ∧
      ((∃ p, s.shell.Moves s.table e p ∧ s' = { s with shell := p }) ∨
      (∃ t p, s.shell.Changes s.table e t p ∧ s' = { s with table := t, shell := p }) ∨
      (∃ id, s.shell = .locking id ∧ e = .lock ∧ s' = { s with lock := some .shell, shell := .claiming id }) ∨
      (∃ id c, s.shell = .unlocking id c ∧ e = .unlock ∧ s' = { s with lock := none, shell := .afterClaim id c }) ∨
      ∃ n reply, s.shell = .announcing n reply ∧ e = .announce n ∧
        s' = { s with notices := s.notices ++ [n], shell := .answering reply }) := by
  have changed : ∀ {c t n work}, s.collector.pending = [] → s.table.apply c = (t, n) → e.change? = some c →
      e.announced? = none → Collects s e { s with table := t, collector := .tell n work } := by
    intro c t n work hp hc he hn
    refine ⟨rfl, ?_, ?_, hn⟩
    · rw [he, Option.toList_some, applyAll_single, hc]
    · rw [he, Option.toList_some, applyAll_single, hc, State.ends, State.ends, pending_tell, hp, List.append_nil,
        List.filter_append]
  have idle : ∀ {l c}, e.change? = none → c.pending = s.collector.pending → e.announced? = none →
      Collects s e { s with lock := l, collector := c } := by
    intro l c he hp hn
    refine ⟨rfl, ?_, ?_, hn⟩
    · rw [he]
      rfl
    · rw [he, State.ends, State.ends, hp]
      exact (List.append_nil _).symm
  cases h with
  | @move e p moves => exact Or.inr ⟨rfl, Or.inl ⟨p, moves, rfl⟩⟩
  | @change e t p changes => exact Or.inr ⟨rfl, Or.inr (Or.inl ⟨t, p, changes, rfl⟩)⟩
  | lock at_ free => exact Or.inr ⟨rfl, Or.inr (Or.inr (Or.inl ⟨_, at_, rfl, rfl⟩))⟩
  | unlock at_ => exact Or.inr ⟨rfl, Or.inr (Or.inr (Or.inr (Or.inl ⟨_, _, at_, rfl, rfl⟩)))⟩
  | announce at_ => exact Or.inr ⟨rfl, Or.inr (Or.inr (Or.inr (Or.inr ⟨_, _, at_, rfl, rfl⟩)))⟩
  | enter at_ free => exact Or.inl (idle rfl (by rw [at_]; rfl) rfl)
  | survey at_ => exact Or.inl (idle rfl (by rw [at_]; rfl) rfl)
  | poll at_ result => exact Or.inl (idle rfl (by rw [at_, pending_afterPoll]; rfl) rfl)
  | record at_ recorded => exact Or.inl (changed (c := .report _) (by rw [at_]; rfl) recorded rfl rfl)
  | conclude at_ ended => exact Or.inl (changed (c := .conclusion _) (by rw [at_]; rfl) ended rfl rfl)
  | inform at_ =>
    refine Or.inl ⟨rfl, rfl, ?_, rfl⟩
    rw [State.ends, State.ends, at_]
    simp [CollectorPoint.pending, applyAll, Event.change?]
  | leave at_ => exact Or.inl (idle rfl (by rw [at_]; rfl) rfl)

/-- The changes of the collector go on the ones before. -/
theorem untouched_collects (h : Untouched s new s') (hc : Collects s' e s'') : Untouched s (e :: new) s'' := by
  refine ⟨?_, ?_, ?_⟩
  · rw [hc.table, h.table, changesIn_cons, applyAll_append]
  · rw [hc.ends, h.ends, h.table, changesIn_cons, applyAll_append, List.filter_append, List.append_assoc]
  · rw [announcedIn_cons, hc.silent, h.silent]
    rfl

/-- A step of the shell that records and announces nothing. -/
theorem untouched_shell (h : Untouched s new s') (ht : s''.table = s'.table) (he : s''.ends = s'.ends)
    (hc : e.change? = none) (hn : e.announced? = none) : Untouched s (e :: new) s'' := by
  have hsame : changesIn (e :: new) = changesIn new := by
    rw [changesIn_cons, hc, Option.toList_none, List.append_nil]
  refine ⟨by rw [ht, h.table, hsame], by rw [he, h.ends, hsame], ?_⟩
  rw [announcedIn_cons, hn, h.silent]
  rfl

/-- The changes of the collector go on the ones after the record. -/
theorem recorded_collects (h : Recorded s id j early late s') (hc : Collects s' e s'') :
    Recorded s id j early (e :: late) s'' := by
  refine ⟨h.found, ?_, ?_⟩
  · rw [hc.table, h.table, changesIn_cons, applyAll_append]
  · rw [hc.ends, h.ends, h.table, changesIn_cons, applyAll_append, List.filter_append]
    simp only [List.append_assoc]

/-- Every step brings the shell on in its operation, or leaves it where it is, as long as it does not give its answer. -/
theorem phase_step (h : Phase s id pgid new s') (hs : Step s' e s'') (hne : ∀ reply, e ≠ .answer reply) :
    Phase s id pgid (e :: new) s'' := by
  rcases collects_or_shell hs with hc | ⟨hcol, hsh⟩
  · cases h with
    | signalling at_ untouched => exact .signalling (hc.shell.trans at_) (untouched_collects untouched hc)
    | resuming at_ untouched => exact .resuming (hc.shell.trans at_) (untouched_collects untouched hc)
    | announcing at_ split recorded silent =>
      refine .announcing (hc.shell.trans at_) (by rw [split]; rfl) (recorded_collects recorded hc) ?_
      rw [announcedIn_cons, hc.silent, silent]
      rfl
    | resumed at_ split recorded told =>
      refine .resumed (hc.shell.trans at_) (by rw [split]; rfl) (recorded_collects recorded hc) ?_
      rw [announcedIn_cons, hc.silent, told]
      rfl
    | refused at_ signal untouched =>
      exact .refused (hc.shell.trans at_) (List.mem_cons_of_mem _ signal) (untouched_collects untouched hc)
    | @missed early late at_ split gone untouched =>
      have split' : e :: new = (e :: late) ++ .resume id :: early := by rw [split]; rfl
      exact .missed (hc.shell.trans at_) split' gone (untouched_collects untouched hc)
  · -- Of the steps of the shell, only those of this operation start from where it stands.
    have other : (∀ i, s'.shell ≠ .locking i) → (∀ i c, s'.shell ≠ .unlocking i c) →
        (∃ p, s'.shell.Moves s'.table e p ∧ s'' = { s' with shell := p }) ∨
        (∃ t p, s'.shell.Changes s'.table e t p ∧ s'' = { s' with table := t, shell := p }) ∨
        ∃ n reply, s'.shell = .announcing n reply ∧ e = .announce n ∧
          s'' = { s' with notices := s'.notices ++ [n], shell := .answering reply } := by
      intro hl hu
      rcases hsh with h | h | ⟨i, h, -⟩ | ⟨i, c, h, -⟩ | h
      · exact Or.inl h
      · exact Or.inr (Or.inl h)
      · exact absurd h (hl i)
      · exact absurd h (hu i c)
      · exact Or.inr (Or.inr h)
    cases h with
    | signalling at_ untouched =>
      rw [at_] at other
      rcases other nofun nofun with ⟨p, moves, rfl⟩ | ⟨t, p, changes, -⟩ | ⟨n, reply, h, -⟩
      · cases moves with
        | signalled => exact .resuming rfl (untouched_shell untouched rfl rfl rfl rfl)
        | notSignalled => exact .refused rfl List.mem_cons_self (untouched_shell untouched rfl rfl rfl rfl)
      · cases changes
      · cases h
    | resuming at_ untouched =>
      rw [at_] at other
      rcases other nofun nofun with ⟨p, moves, rfl⟩ | ⟨t, p, changes, rfl⟩ | ⟨n, reply, h, -⟩
      · cases moves with
        | resumeNone missing =>
          have split : Event.resume id :: new = [] ++ .resume id :: new := rfl
          refine .missed rfl split ?_ (untouched_shell untouched rfl rfl rfl rfl)
          rw [← untouched.table]
          exact Option.map_eq_none_iff.1 missing
      · cases changes with
        | resume resumed =>
          obtain ⟨j, hj, rfl, rfl⟩ := resume?_some resumed
          have split : Event.resume id :: new = [] ++ .resume id :: new := rfl
          refine .announcing rfl split ⟨untouched.table ▸ hj, ?_, ?_⟩ (by rw [announcedIn_cons, untouched.silent]; rfl)
          · rw [← untouched.table]
            rfl
          · rw [← untouched.ends]
            exact (List.append_nil _).symm
      · cases h
    | @announcing early late j at_ split recorded silent =>
      rw [at_] at other
      rcases other nofun nofun with ⟨p, moves, -⟩ | ⟨t, p, changes, -⟩ | ⟨n, reply, h, rfl, rfl⟩
      · cases moves
      · cases changes
      · obtain ⟨rfl, rfl⟩ := ShellPoint.announcing.inj h
        have hsame : changesIn (Event.announce (.resumed id j.command) :: late) = changesIn late := by
          rw [changesIn_cons]
          exact List.append_nil _
        have split' : Event.announce (.resumed id j.command) :: new =
            (.announce (.resumed id j.command) :: late) ++ .resume id :: early := by rw [split]; rfl
        refine .resumed rfl split' ⟨recorded.found, ?_, ?_⟩ (by rw [announcedIn_cons, silent]; rfl)
        · rw [hsame]
          exact recorded.table
        · rw [hsame, ← recorded.ends]
          simp [State.ends, Notice.isEnd]
    | resumed at_ | refused at_ | missed at_ =>
      rw [at_] at other
      rcases other nofun nofun with ⟨p, moves, -⟩ | ⟨t, p, changes, -⟩ | ⟨n, reply, h, -⟩
      · cases moves
        exact absurd rfl (hne _)
      · cases changes
      · cases h

/-- Where the shell stands in its operation, after a run in which it does not give its answer. -/
theorem phase_of_run {A : Assumption} {es : List Event} (hs : s.shell = .signalling id pgid) (h : Run A es s (new ++ es) s')
    (hone : ∀ reply, .answer reply ∉ new) : Phase s id pgid new s' := by
  have start : Phase s id pgid [] s := .signalling hs ⟨rfl, (List.append_nil _).symm, rfl⟩
  refine h.since (P := fun new s' => (∀ reply, .answer reply ∉ new) → Phase s id pgid new s') (fun _ => start) ?_ hone
  intro new e s' s'' _ ih next hone
  exact phase_step (ih fun reply hmem => hone reply (List.mem_cons_of_mem _ hmem)) next
    fun reply he => hone reply (he ▸ List.mem_cons_self)

/-- A job that is marked twice is in the state of the second mark. -/
theorem withState_resumed (t : JobTable) (id : JobId) (σ : JobState) :
    (t.resumed id).withState id σ = t.mark id (fun _ => true) σ := by
  refine eq_of_jobs rfl ?_
  rw [withState, MarksAux.mark_jobs, resumed, MarksAux.mark_jobs, MarksAux.mark_jobs, List.map_map]
  refine List.map_congr_left fun j _ => ?_
  by_cases hj : j.id = id <;> simp [MarksAux.markAt, Job.mark, hj]

/-- Recorded late, the job is where it would be if it had been recorded first, but for its state, and the same ends are
announced. The state is the same as well if the early changes would not have stopped the job. -/
theorem recorded_in_order (hw : s.table.WellFormed) (h : Recorded s id j early late s')
    (split : new = late ++ .resume id :: early) :
    s'.ends = s.ends ++ (s.resumedFirst id new).2.filter Notice.isEnd ∧
    (∃ σ, (s.resumedFirst id new).1 = s'.table.withState id σ) ∧
    ((∀ k, (s.resumedFirst id early).1.find? id = some k → k.state ≠ .stopped) →
      s'.table = (s.resumedFirst id new).1) := by
  have hwe := hw.applyAll (changesIn early)
  obtain ⟨hj, hid⟩ := (find?_eq_some_iff hwe).1 h.found
  -- The early changes, had the job been recorded before them.
  obtain ⟨σ, hσ, hearly, hearlyEnds⟩ :=
    @applyAll_mark _ id (fun _ => true) .running hw nofun (changesIn early)
  have hfirst : (s.resumedFirst id early).1 = ((s.table.applyAll (changesIn early)).1.resumed id).withState id σ :=
    hearly.trans (withState_resumed ..).symm
  -- The late changes, had the job been in the state that the early ones would have left it in.
  have hwr : ((s.table.applyAll (changesIn early)).1.resumed id).WellFormed := MarksAux.wellFormed_mark hwe nofun
  obtain ⟨τ, -, hlate, hlateEnds⟩ := @applyAll_mark _ id (fun b => b) _ hwr hσ (changesIn late)
  have hchanges : changesIn new = changesIn early ++ changesIn late := by
    rw [split, changesIn_append, changesIn_cons]
    simp [Event.change?]
  have hall : s.resumedFirst id new =
      (((s.resumedFirst id early).1.applyAll (changesIn late)).1,
        (s.resumedFirst id early).2 ++ ((s.resumedFirst id early).1.applyAll (changesIn late)).2) := by
    rw [State.resumedFirst, hchanges, applyAll_append]
    rfl
  refine ⟨?_, ⟨τ, ?_⟩, fun hstate => ?_⟩
  · have hsame : (s.resumedFirst id early).2.filter Notice.isEnd =
        (s.table.applyAll (changesIn early)).2.filter Notice.isEnd := hearlyEnds (Or.inr ⟨j, hj, hid⟩)
    rw [h.ends, hall, List.filter_append, hsame, hfirst, List.append_assoc]
    exact congrArg (fun l => s.ends ++ (_ ++ l)) (hlateEnds (Or.inl fun _ => rfl)).symm
  · rw [hall, hfirst, h.table]
    exact hlate
  · have hrunning : σ = .running := by
      have hmarked : (s.resumedFirst id early).1.find? id = some (j.mark (fun _ => true) σ) := by
        rw [show (s.resumedFirst id early).1 = _ from hearly, find?_eq_some_iff (MarksAux.wellFormed_mark hwe hσ)]
        exact ⟨List.mem_map.2 ⟨j, hj, if_pos (by simpa using hid)⟩, hid⟩
      have hnot : σ ≠ .stopped := hstate _ hmarked
      cases σ with
      | running => rfl
      | stopped => exact absurd rfl hnot
      | done => exact absurd rfl hσ
    rw [h.table, hall, hfirst, hrunning, withState_resumed]
    rfl

end ResumptionAux

open ResumptionAux

variable {A : Assumption} {es new : List Event} {s s' : State} {id : JobId} {pgid : Pid} {result : Except JobError Unit}

/-- Continuing a job in the background, in three parts, for every order of the steps of the shell and the collector between the
look-up of the job and the answer.
1. If the signal fails, the answer is this failure, and the shell has recorded and announced nothing.
2. If the job is gone when it is to be recorded, the answer is that there is no such job, and the shell has recorded and announced
   nothing.
3. Else the job is announced as resumed. The ends that are announced, and the jobs that are left, are those of recording it first
   and making the changes of the collector then; only the state of this job can differ, and only if these changes, as far as the
   collector made them before the shell recorded the job, had left it stopped. -/
theorem resumption_in_order (h : Reachable A es s) (hs : s.shell = .signalling id pgid) (hr : Run A es s (new ++ es) s')
    (hone : ∀ reply, .answer reply ∉ new) (he : s'.shell = .answering (.sentToBackground result)) :
    (∃ cause, .signal pgid .cont (.error cause) ∈ new ∧ result = .error (.signal id cause) ∧ Untouched s new s') ∨
    ∃ early late, new = late ++ .resume id :: early ∧
      match (s.table.applyAll (changesIn early)).1.find? id with
      | none => result = .error (.notFound id) ∧ Untouched s new s'
      | some j =>
        result = .ok () ∧ announcedIn new = [.resumed id j.command] ∧
        s'.ends = s.ends ++ (s.resumedFirst id new).2.filter Notice.isEnd ∧
        (∃ σ, (s.resumedFirst id new).1 = s'.table.withState id σ) ∧
        ((∀ k, (s.resumedFirst id early).1.find? id = some k → k.state ≠ .stopped) →
          s'.table = (s.resumedFirst id new).1) := by
  have hw := (Sound.of_run h Sound.start).wellFormed
  cases phase_of_run hs hr hone with
  | signalling at_ | resuming at_ | announcing at_ =>
    rw [at_] at he
    cases he
  | refused at_ signal untouched =>
    rw [at_] at he
    cases he
    exact Or.inl ⟨_, signal, rfl, untouched⟩
  | missed at_ split gone untouched =>
    rw [at_] at he
    cases he
    refine Or.inr ⟨_, _, split, ?_⟩
    rw [gone]
    exact ⟨rfl, untouched⟩
  | resumed at_ split recorded told =>
    rw [at_] at he
    cases he
    refine Or.inr ⟨_, _, split, ?_⟩
    rw [recorded.found]
    exact ⟨rfl, told, recorded_in_order hw recorded split⟩

namespace ResumptionAux

/-- What led to `suspended`, the last event first. -/
def suspension : List Event :=
  [.background 1, .answer (.ran (.ok (.stopped .tstp 1))), .announce (.stopped 1 "vi"),
    .suspend 1 (.ofLaunched ⟨100, [100]⟩ "vi"), .settle 100 (.ok (.stopped 100 .tstp)), .begin 100,
    .launch ⟨100, [100]⟩ "vi" false]

/-- A session whose only job was stopped in the foreground, and is about to be continued in the background. -/
def suspended : State where
  table := ⟨1, [{ id := 1, pgid := 100, command := "vi", state := .stopped, background := false, live := 1, members := [100] }]⟩
  shell := .signalling 1 100
  notices := [.stopped 1 "vi"]

/-- An orderly system leads there. -/
theorem reachable_suspended : Reachable Orderly suspension suspended := by
  have r₀ : Reachable Orderly [] {} := .refl
  have r₁ := r₀.step (e := .launch ⟨100, [100]⟩ "vi" false) ⟨List.not_mem_nil, by decide, by decide, nofun⟩ (.move (.launch ..))
  have r₂ := r₁.step (by trivial) (.move (.begin ..))
  have r₃ := r₂.step (e := .settle 100 (.ok (.stopped 100 .tstp)))
    ⟨_, List.mem_cons_self, rfl, by decide, by rintro _ ⟨⟩; decide⟩ (.move (.settle rfl rfl))
  have r₄ := r₃.step (by trivial) (.change (.suspend rfl))
  have r₅ := r₄.step (by trivial) (.announce rfl)
  have r₆ : Reachable Orderly suspension.tail { suspended with shell := .ready } := r₅.step (by trivial) (.move (.answer _))
  have found : suspended.table.find? 1 = suspended.table.jobs.head? := rfl
  exact r₆.step (by trivial) (.move (.background found))

/-- A pass begins once the job has been signalled. -/
def signalled : List Event := [.survey, .enter, .signal 100 .cont (.ok ())] ++ suspension

/-- The pass is about to wait on the group of the job, and the shell is about to record it. -/
theorem run_signalled : Run Orderly suspension suspended signalled
    { suspended with lock := some .collector, shell := .resuming 1, collector := .visiting [100] } := by
  have r₀ : Run Orderly suspension suspended suspension suspended := .refl
  have r₁ := r₀.step (e := .signal 100 .cont (.ok ())) (by trivial) (.move (.signalled ..))
  have r₂ := r₁.step (by trivial) (.enter rfl rfl)
  exact r₂.step (by trivial) (.survey rfl)

end ResumptionAux

/-- The stopped job goes on before it is recorded, and ends afterwards: it is announced as resumed and then as finished. -/
theorem resumption_in_order_of_an_exit :
    ∃ es s new s', Reachable Orderly es s ∧ s.shell = .signalling 1 100 ∧ Run Orderly es s (new ++ es) s' ∧
      s'.shell = .answering (.sentToBackground (.ok ())) ∧ announcedIn new = [.resumed 1 "vi"] ∧
      s'.ends = [.finished 1 "vi" (.exited 0)] := by
  let new : List Event :=
    [.record ⟨fun _ => none, .exited 100 0⟩, .poll 100 (.ok (.exited 100 0)), .announce (.resumed 1 "vi"), .resume 1,
      .record ⟨fun _ => none, .continued 100⟩, .poll 100 (.ok (.continued 100)), .survey, .enter, .signal 100 .cont (.ok ())]
  have r₁ := run_signalled.step (e := .poll 100 (.ok (.continued 100)))
    ⟨⟨100, [100]⟩, by decide, rfl, by decide, by rintro _ ⟨⟩; decide⟩ (.poll rfl _)
  have r₂ := r₁.step (e := .record ⟨fun _ => none, .continued 100⟩) (by trivial) (.record rfl rfl)
  have r₃ := r₂.step (by trivial) (.change (.resume rfl))
  have r₄ := r₃.step (by trivial) (.announce rfl)
  have r₅ := r₄.step (e := .poll 100 (.ok (.exited 100 0)))
    ⟨⟨100, [100]⟩, by decide, rfl, by decide, by rintro _ ⟨⟩; decide⟩ (.poll rfl _)
  have r₆ : Run Orderly suspension suspended (new ++ suspension) _ :=
    r₅.step (e := .record ⟨fun _ => none, .exited 100 0⟩) (by trivial) (.record rfl rfl)
  refine ⟨suspension, suspended, new, _, reachable_suspended, rfl, r₆, rfl, ?_⟩
  rcases resumption_in_order reachable_suspended rfl r₆ (by simp [new]) rfl with ⟨_, -, h, -⟩ | ⟨early, late, -, h⟩
  · cases h
  · split at h
    · exact absurd h.1 nofun
    · exact ⟨rfl, h.2.2.1⟩

/-- The changes of the collector are not always made as they would be after a first record of the job. For one stopped job:
1. The signal fails, and the job stays as it was.
2. The job ends before it is recorded, and no one is told of its end.
3. The job goes on and stops again before it is recorded, and it is listed as running. -/
theorem resumption_not_first :
    ∃ es s, Reachable Orderly es s ∧ s.shell = .signalling 1 100 ∧
      (∃ new s', Run Orderly es s (new ++ es) s' ∧ s'.shell = .answering (.sentToBackground (.error (.signal 1 .noProcess))) ∧
        s'.table ≠ (s.resumedFirst 1 new).1) ∧
      (∃ new s', Run Orderly es s (new ++ es) s' ∧ s'.shell = .answering (.sentToBackground (.error (.notFound 1))) ∧
        s'.ends = [] ∧ (s.resumedFirst 1 new).2 = [.finished 1 "vi" (.exited 0)]) ∧
      ∃ new s', Run Orderly es s (new ++ es) s' ∧ s'.shell = .answering (.sentToBackground (.ok ())) ∧
        (s'.table.find? 1).map Job.state = some .running ∧
        ((s.resumedFirst 1 new).1.find? 1).map Job.state = some .stopped := by
  refine ⟨suspension, suspended, reachable_suspended, rfl, ?_, ?_, ?_⟩
  · have r₀ : Run Orderly suspension suspended suspension suspended := .refl
    have r₁ := r₀.step (e := .signal 100 .cont (.error .noProcess)) (by trivial) (.move (.notSignalled ..))
    exact ⟨[.signal 100 .cont (.error .noProcess)], _, r₁, rfl, by decide⟩
  · let new : List Event :=
      [.resume 1, .record ⟨fun _ => none, .exited 100 0⟩, .poll 100 (.ok (.exited 100 0)), .survey, .enter,
        .signal 100 .cont (.ok ())]
    have r₁ := run_signalled.step (e := .poll 100 (.ok (.exited 100 0)))
      ⟨⟨100, [100]⟩, by decide, rfl, by decide, by rintro _ ⟨⟩; decide⟩ (.poll rfl _)
    have r₂ := r₁.step (e := .record ⟨fun _ => none, .exited 100 0⟩) (by trivial) (.record rfl rfl)
    have r₃ : Run Orderly suspension suspended (new ++ suspension) _ := r₂.step (by trivial) (.move (.resumeNone rfl))
    exact ⟨new, _, r₃, rfl, rfl, by decide⟩
  · let new : List Event :=
      [.announce (.resumed 1 "vi"), .resume 1, .record ⟨fun _ => none, .stopped 100 .ttin⟩, .poll 100 (.ok (.stopped 100 .ttin)),
        .record ⟨fun _ => none, .continued 100⟩, .poll 100 (.ok (.continued 100)), .survey, .enter, .signal 100 .cont (.ok ())]
    have r₁ := run_signalled.step (e := .poll 100 (.ok (.continued 100)))
      ⟨⟨100, [100]⟩, by decide, rfl, by decide, by rintro _ ⟨⟩; decide⟩ (.poll rfl _)
    have r₂ := r₁.step (e := .record ⟨fun _ => none, .continued 100⟩) (by trivial) (.record rfl rfl)
    have r₃ := r₂.step (e := .poll 100 (.ok (.stopped 100 .ttin)))
      ⟨⟨100, [100]⟩, by decide, rfl, by decide, by rintro _ ⟨⟩; decide⟩ (.poll rfl _)
    have r₄ := r₃.step (e := .record ⟨fun _ => none, .stopped 100 .ttin⟩) (by trivial) (.record rfl rfl)
    have r₅ := r₄.step (by trivial) (.change (.resume rfl))
    have r₆ : Run Orderly suspension suspended (new ++ suspension) _ := r₅.step (by trivial) (.announce rfl)
    exact ⟨new, _, r₆, rfl, rfl, by decide⟩

end JobShell
