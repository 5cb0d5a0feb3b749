import JobShell.Proofs.Threads.BothCollectors

/-!
# The status of a job in the foreground

A job that is continued in the foreground answers with the status of its last stage, if that stage ends in the wait. A status
that was collected before the job was claimed, by the collector or by an earlier wait, is kept nowhere, and the answer is then
that the status is not known (`foreground_status_lost`). `foreground_status` says that these are the only two answers, and which
one it is.

The invariant is `Found`. It goes with the claim through the wait to the answer, and says what was found of the last stage since
the claim.
-/

namespace JobShell

/-- How the process ended, if the wait was told of it. -/
def WaitResult.exitOf? (pid : Pid) : WaitResult → Option ExitStatus
  | .ok w => if w.pid? = some pid then w.exit? else none
  | .error _ => none

namespace Event

/-- How the process ended, if a wait of either thread was told of it. -/
def exitOf? (pid : Pid) (e : Event) : Option ExitStatus := e.answer?.bind fun a => WaitResult.exitOf? pid a.2

/-- The end that a foreground wait was told of: the one of this process, or any where none is given. -/
def awaitedExit? (stage : Option Pid) : Event → Option ExitStatus
  | .await _ (.ok w) => if stage = none ∨ w.pid? = stage then w.exit? else none
  | _ => none

end Event

/-- How the process ended, as often as a wait of either thread was told of it, the last time first. -/
def exitsIn (es : List Event) (pid : Pid) : List ExitStatus := es.filterMap (Event.exitOf? pid)

/-- The ends of a stage that foreground waits were told of, the last one first. -/
def awaitedIn (es : List Event) (stage : Option Pid) : List ExitStatus := es.filterMap (Event.awaitedExit? stage)

namespace PipelineStatusAux

variable {e : Event} {es : List Event} {pid : Pid} {exit : ExitStatus} {l : Launched}

/-! ### Ends in a history -/

/-- A process that ended did not end in an unknown way. -/
theorem ne_unknown_of_exit {w : WaitStatus} (h : w.exit? = some exit) : exit ≠ .unknown := by
  cases w <;> cases h <;> nofun

/-- How a process ended that was told of is known. -/
theorem ne_unknown_of_mem (h : exit ∈ exitsIn es pid) : exit ≠ .unknown := by
  obtain ⟨e, -, he⟩ := List.mem_filterMap.1 h
  obtain ⟨⟨_, result⟩, -, hr⟩ := Option.bind_eq_some_iff.1 he
  cases result with
  | error => cases hr
  | ok w =>
    rw [WaitResult.exitOf?] at hr
    split at hr
    · exact ne_unknown_of_exit hr
    · cases hr

/-- A wait that was told how the process ended has collected it. -/
theorem ended?_of_exitOf {result : WaitResult} : (∃ exit, result.exitOf? pid = some exit) ↔ result.ended? = some pid := by
  cases result with
  | error => exact ⟨nofun, nofun⟩
  | ok w =>
    rw [WaitResult.exitOf?, WaitResult.ended?, WaitStatus.ended?]
    cases hx : w.exit? with
    | none => simp
    | some exit =>
      by_cases hp : w.pid? = some pid <;> simp [hp]

/-- The event that tells how the process ended is the one that collects it. -/
theorem collected?_of_exitOf : (∃ exit, e.exitOf? pid = some exit) ↔ e.collected? = some pid := by
  rw [Event.exitOf?, Event.collected?]
  cases e.answer? with
  | none => simp
  | some a => exact ended?_of_exitOf

/-- A process was collected exactly when a wait was told how it ended. -/
theorem mem_collectedIn_iff : pid ∈ collectedIn es ↔ exitsIn es pid ≠ [] := by
  rw [collectedIn, List.mem_filterMap, exitsIn, Ne, List.filterMap_eq_nil_iff]
  push Not
  exact exists_congr fun e => and_congr_right fun _ => by rw [← collected?_of_exitOf, Option.ne_none_iff_exists']

/-- On an orderly system, a process that is collected was left of a pipeline of the group that was waited on. -/
theorem left_of_orderly {pgid : Pid} {result : WaitResult} (h : Orderly es e) (ha : e.answer? = some (pgid, result))
    (hx : e.exitOf? pid = some exit) : ∃ l ∈ launchedIn es, l.pgid = pgid ∧ pid ∈ (ledger es).left l := by
  have hanswers : Answers es pgid result := by
    cases e <;> cases ha <;> exact h
  rw [Event.exitOf?, ha] at hx
  exact HistoriesAux.left_of_answers hanswers (ended?_of_exitOf.1 ⟨exit, hx⟩)

/-- What a wait is told of once more was not told of before: on an orderly system, every process is collected once at most. -/
theorem exitsIn_of_step (ho : Orderly es e) (hx : e.exitOf? pid = some exit) : exitsIn es pid = [] := by
  obtain ⟨⟨pgid, result⟩, ha, -⟩ := Option.bind_eq_some_iff.1 hx
  obtain ⟨l, -, -, hleft⟩ := left_of_orderly ho ha hx
  by_contra hne
  exact (mem_leftOf.1 hleft).2 (mem_collectedIn_iff.2 hne)

/-- On an orderly system, a wait is told of the end of a process once at most. -/
theorem length_exitsIn {s : State} (h : Reachable Orderly es s) (pid : Pid) : (exitsIn es pid).length ≤ 1 := by
  refine h.invariant (P := fun es _ => (exitsIn es pid).length ≤ 1) (fun {es e _ _} hle ho _ => ?_) (Nat.zero_le _)
  cases hx : e.exitOf? pid with
  | none =>
    rw [exitsIn, List.filterMap_cons_none hx]
    exact hle
  | some exit =>
    rw [exitsIn, List.filterMap_cons_some hx, List.length_cons]
    exact Nat.le_of_eq (congrArg (·.length + 1) (exitsIn_of_step ho hx))

/-- The ends that a foreground wait is told of are those of the process. -/
theorem exitOf?_await (pgid : Pid) (result : WaitResult) (pid : Pid) :
    (Event.await pgid result).exitOf? pid = (Event.await pgid result).awaitedExit? (some pid) := by
  cases result with
  | error => rfl
  | ok w => simp [Event.exitOf?, Event.answer?, WaitResult.exitOf?, Event.awaitedExit?]

/-- An event that collects nothing tells of no end. -/
theorem exitOf?_of_not_collected (h : e.collected? = none) (pid : Pid) : e.exitOf? pid = none := by
  cases hx : e.exitOf? pid with
  | none => rfl
  | some exit =>
    rw [collected?_of_exitOf.1 ⟨exit, hx⟩] at h
    cases h

/-- The status that a wait goes on with is the one it was just told of for its stage, or the one it had. -/
theorem status_of_proceed {g : GroupWait} {q q' : WaitProgress} {pgid : Pid} {result : WaitResult}
    (h : g.observe q result = .proceed q') : q'.status = ((Event.await pgid result).awaitedExit? g.statusPid).getD q.status := by
  rcases result with cause | w
  · rw [GroupWait.observe] at h
    split at h
    · cases h
      rfl
    · split at h <;> cases h
  · cases w <;> cases h <;> simp [Event.awaitedExit?, GroupWait.collect, WaitStatus.exit?] <;> split <;> rfl

/-- What ends a foreground wait is the end of no process. -/
theorem ended?_of_settle {s s' : State} {pgid : Pid} {result : WaitResult} (h : Step s (.settle pgid result) s') :
    result.ended? = none := by
  revert h
  generalize he : Event.settle pgid result = e
  intro h
  cases h with
  | move moves =>
    subst he
    generalize s.shell = p at moves
    cases moves with
    | settle _ seen => exact (BothCollectorsAux.observe_settled seen).1
  | change changes =>
    subst he
    generalize s.shell = p at changes
    cases changes
  | _ => cases he

end PipelineStatusAux

open PipelineStatusAux HistoriesAux

/-! ## What is found of a claimed job -/

/-- The job was claimed for the foreground after the events `before`, and none was in those `since`. The group that is waited
for is the one of the job, and the status is that of the last stage, as foreground waits were told of it since. On an orderly
system, no other wait was told of the end of a member. -/
structure Traced (A : Assumption) (es : List Event) (g : GroupWait) (status : ExitStatus) (id : JobId) (j : Job)
    (before since : List Event) : Prop where
  history : es = since ++ .claim id :: before
  latest : ∀ i, .claim i ∉ since
  claimed : ∃ s, Reachable A before s ∧ s.table.find? id = some j
  group : g.pgid = j.pgid
  stage : g.statusPid = j.members.getLast?
  found : status = (awaitedIn since g.statusPid).head?.getD .unknown
  alone : (∀ es e, A es e → Orderly es e) → ∀ pid ∈ j.members, exitsIn since pid = awaitedIn since (some pid)

/-- The status was found for a job since it was claimed. -/
def Found (A : Assumption) (es : List Event) (g : GroupWait) (status : ExitStatus) : Prop :=
  ∃ id j before since, Traced A es g status id j before since

/-- On an orderly system, nothing is left of the group. -/
def Emptied (A : Assumption) (es : List Event) (pgid : Pid) : Prop :=
  (∀ es e, A es e → Orderly es e) → ∀ l ∈ launchedIn es, l.pgid = pgid → (ledger es).left l = []

/-- What the shell carries for a claimed job was found since; and where the job has ended, nothing is left of it. -/
def Attested (A : Assumption) (es : List Event) : ShellPoint → Prop
  | .unlocking _ c => ∀ k ∈ c, Found A es k.group .unknown
  | .continuing _ k => Found A es k.group .unknown
  | .waiting f q => f.claimed.isSome = true → Found A es f.group q.status
  | .settling f result => ∀ status, result = .ok (.finished status) → f.claimed.isSome = true → Found A es f.group status
  | .announcing _ reply | .answering reply =>
    ∀ status, reply = .broughtToForeground (.ok (.finished status)) → ∃ g, Found A es g status ∧ Emptied A es g.pgid
  | _ => True

variable {A : Assumption} {es : List Event} {e : Event} {s s' : State} {g : GroupWait} {status : ExitStatus} {p : ShellPoint}
  {pgid pid : Pid} {id : JobId} {j : Job} {before since : List Event}

/-- On an orderly system, a claimed job is one of a registered pipeline. -/
theorem Traced.registered (h : Traced A es g status id j before since) (hA : ∀ es e, A es e → Orderly es e) :
    ∃ l, (id, l) ∈ registeredIn before ∧ l ∈ launchedIn es ∧ l.pgid = g.pgid ∧ l.pids = j.members := by
  obtain ⟨s, hr, hj⟩ := h.claimed
  have hr := hr.weaken hA
  obtain ⟨hmem, rfl⟩ := (JobTable.find?_eq_some_iff (Sound.of_run hr Sound.start).wellFormed).1 hj
  have hb := Ledger.Balanced.of_reachable hr
  obtain ⟨l, hl, hg, hm⟩ := hb.registry.tracked j hmem
  obtain ⟨e, he, hle⟩ := List.mem_filterMap.1 (hb.registry.launched _ hl)
  refine ⟨l, hl, List.mem_filterMap.2 ⟨e, ?_, hle⟩, hg.trans h.group.symm, hm⟩
  rw [h.history]
  exact List.mem_append_right _ (List.mem_cons_of_mem _ he)

/-- While the group is in hand, or once nothing of it is left, no pass of the collector takes the end of a member. -/
theorem Traced.exitOf?_of_poll (h : Traced A es g status id j before since) (hA : ∀ es e, A es e → Orderly es e)
    (hr : Reachable A es s) {result : WaitResult} (ha : A es (.poll pgid result)) (hs : Step s (.poll pgid result) s')
    (hin : s.shell.group? = some g.pgid ∨ Emptied A es g.pgid) (hpid : pid ∈ j.members) :
    (Event.poll pgid result).exitOf? pid = none := by
  by_contra hne
  obtain ⟨exit, hx⟩ := Option.ne_none_iff_exists'.1 hne
  obtain ⟨a, hal, hag, hleft⟩ := left_of_orderly (hA _ _ ha) rfl hx
  obtain ⟨l, -, hl, hlg, hm⟩ := h.registered hA
  have hproper := Ledger.Proper.of_reachable (hr.weaken hA)
  obtain rfl := hproper.members a hal l hl pid (mem_pids_of_left hleft) (hm ▸ hpid)
  obtain rfl := hag.symm.trans hlg
  rcases hin with hin | hempty
  · have hx := Exclusive.of_reachable (hr.weaken fun es e ha => freshGroups_of_orderly (hA es e ha))
    exact hx.not_polled hin result hs
  · rw [hempty hA a hal hag] at hleft
    cases hleft

/-- A step that claims no job adds to what was found of the one that was claimed. -/
theorem Found.step (h : Found A es g status) (hr : Reachable A es s) (ha : A es e) (hs : Step s e s') (hne : ∀ i, e ≠ .claim i)
    (hin : s.shell.group? = some g.pgid ∨ Emptied A es g.pgid) :
    Found A (e :: es) g ((e.awaitedExit? g.statusPid).getD status) := by
  obtain ⟨id, j, before, since, ht⟩ := h
  refine ⟨id, j, before, e :: since, congrArg (e :: ·) ht.history, ?_, ht.claimed, ht.group, ht.stage, ?_, fun hA pid hpid => ?_⟩
  · exact fun i hi => (List.mem_cons.1 hi).elim (fun he => hne i he.symm) (ht.latest i)
  · cases hx : e.awaitedExit? g.statusPid with
    | none =>
      rw [awaitedIn, List.filterMap_cons_none hx]
      exact ht.found
    | some exit =>
      rw [awaitedIn, List.filterMap_cons_some hx]
      rfl
  · have hsame : e.exitOf? pid = e.awaitedExit? (some pid) := by
      cases e with
      | await pgid result => exact exitOf?_await pgid result pid
      | settle pgid result => exact exitOf?_of_not_collected (e := .settle pgid result) (ended?_of_settle hs) pid
      | poll pgid result => exact ht.exitOf?_of_poll hA hr ha hs hin hpid
      | _ => rfl
    have hrest := ht.alone hA pid hpid
    rw [exitsIn, awaitedIn] at hrest ⊢
    rw [List.filterMap_cons, List.filterMap_cons, hsame, hrest]

/-- A step that tells no foreground wait of an end leaves what was found. -/
theorem Found.mono (h : Found A es g status) (hr : Reachable A es s) (ha : A es e) (hs : Step s e s') (hne : ∀ i, e ≠ .claim i)
    (hx : ∀ stage, e.awaitedExit? stage = none) (hin : s.shell.group? = some g.pgid ∨ Emptied A es g.pgid) :
    Found A (e :: es) g status := by
  have := Found.step h hr ha hs hne hin
  rwa [hx] at this

/-- Of a group of which nothing is left, nothing comes to be left with a step that launches nothing. -/
theorem Emptied.mono (h : Emptied A es pgid) (hl : e.launched? = none) : Emptied A (e :: es) pgid := by
  intro hA l hmem hg
  rw [launchedIn, List.filterMap_cons_none hl] at hmem
  have hleft := h hA l hmem hg
  cases hc : e.collected? with
  | none =>
    have : (ledger (e :: es)).left l = (ledger es).left l := by
      simp only [Ledger.left, ledger, collectedIn, List.filterMap_cons_none hc]
    exact this.trans hleft
  | some pid =>
    have : (ledger (e :: es)).left l = { ledger es with collected := pid :: (ledger es).collected }.left l := by
      simp only [Ledger.left, ledger, collectedIn, List.filterMap_cons_some hc]
    exact this.trans (BothCollectorsAux.left_nil_mono hleft)

namespace Attested

/-- A step that is no claim, tells no foreground wait of an end and launches nothing leaves what the shell carries as it was
found. -/
theorem mono (h : Attested A es s.shell) (hr : Reachable A es s) (ha : A es e) (hs : Step s e s') (hne : ∀ i, e ≠ .claim i)
    (hx : ∀ stage, e.awaitedExit? stage = none) (hl : e.launched? = none) : Attested A (e :: es) s.shell := by
  have carry : ∀ {g status}, s.shell.group? = some g.pgid ∨ Emptied A es g.pgid → Found A es g status →
      Found A (e :: es) g status := fun hin hf => Found.mono hf hr ha hs hne hx hin
  revert h carry
  generalize s.shell = p
  intro h carry
  cases p with
  | unlocking id c =>
    rintro k ⟨⟩
    exact carry (Or.inl rfl) (h k rfl)
  | continuing id k => exact carry (Or.inl rfl) h
  | waiting f q => exact fun hf => carry (Or.inl rfl) (h hf)
  | settling f result => exact fun status hres hf => carry (Or.inl rfl) (h status hres hf)
  | announcing n reply | answering reply =>
    intro status hrep
    obtain ⟨g, hf, hempty⟩ := h status hrep
    exact ⟨g, carry (Or.inr hempty) hf, Emptied.mono hempty hl⟩
  | _ => trivial

/-- The notice of an end leads to the answer that was found. -/
theorem tell (n : Option Notice) {reply : Reply} (h : Attested A es (.answering reply)) : Attested A es (.tell n reply) := by
  cases n <;> exact h

/-- The shell moves on. -/
theorem move (h : Attested A es s.shell) (hr : Reachable A es s) (ha : A es e) (hm : s.shell.Moves s.table e p) :
    Attested A (e :: es) p := by
  have hs : Step s e { s with shell := p } := .move hm
  have step : ∀ {g status}, (∀ i, e ≠ .claim i) → s.shell.group? = some g.pgid → Found A es g status →
      Found A (e :: es) g ((e.awaitedExit? g.statusPid).getD status) :=
    fun hne hin hf => Found.step hf hr ha hs hne (Or.inl hin)
  revert h hm step
  generalize s.shell = p₀
  intro h hm step
  cases hm with
  | await open_ seen =>
    intro hf
    rw [status_of_proceed seen]
    exact step nofun rfl (h hf)
  | @settle f q result r open_ seen =>
    rintro status rfl hf
    -- What ends a wait without failure or stop is that there are no children.
    rcases (BothCollectorsAux.observe_settled seen).2 with ⟨-, hres⟩ | ⟨_, -, -, -, hres⟩ | ⟨_, _, -, hres⟩ <;> cases hres
    exact step nofun rfl (h hf)
  | complete complete =>
    rintro status ⟨⟩ hf
    exact step nofun rfl (h hf)
  | continued id k => exact fun _ => step nofun rfl h
  | begin l command => exact nofun
  | claimNone missing => exact nofun
  | killed id pgid signal revive => cases revive <;> first | trivial | exact nofun
  | _ => first | trivial | exact nofun

/-- When a wait has finished, nothing is left of its group. -/
theorem emptied_of_finished (hr : Reachable A es s) {f : Foreground} (hat : s.shell = .settling f (.ok (.finished status))) :
    Emptied A es f.group.pgid := by
  intro hA l hl hg
  have hr := hr.weaken hA
  have hcov := (Ledger.Balanced.of_reachable hr).covered
  rw [hat] at hcov
  obtain ⟨a, hserves, hleft⟩ := hcov
  have hproper := Ledger.Proper.of_reachable hr
  rw [Ledger.Balanced.served_eq hproper hserves hl hg]
  exact hleft

/-- The reply after a wait has finished. -/
theorem finished_of_reply {f : Foreground} {result : Except Errno ForegroundOutcome}
    (h : f.reply result = .broughtToForeground (.ok (.finished status))) :
    result = .ok (.finished status) ∧ f.claimed.isSome = true := by
  rw [Foreground.reply] at h
  split at h
  · rename_i c hf
    refine ⟨?_, by rw [hf]; rfl⟩
    cases result with
    | error => cases h
    | ok outcome =>
      cases h
      rfl
  · cases h

/-- The shell changes the table. -/
theorem change {t : JobTable} (h : Attested A es s.shell) (hr : Reachable A es s) (ha : A es e)
    (hc : s.shell.Changes s.table e t p) : Attested A (e :: es) p := by
  have hs : Step s e { s with table := t, shell := p } := .change hc
  revert h hc
  generalize hat : s.shell = p₀
  generalize htb : s.table = t₀
  intro h hc
  cases hc with
  | @finish _ f status n finished =>
    refine tell n fun status' hrep => ?_
    obtain ⟨hres, hf⟩ := finished_of_reply hrep
    cases hres
    exact ⟨f.group, Found.mono (h status rfl hf) hr ha hs nofun (fun _ => rfl) (Or.inl (by rw [hat]; rfl)),
      Emptied.mono (emptied_of_finished hr hat) rfl⟩
  | @suspend _ f signal live id n tracked =>
    refine tell n fun status hrep => ?_
    cases (finished_of_reply hrep).1
  | giveUp f cause =>
    intro status hrep
    cases (finished_of_reply hrep).1
  | @claim _ id c claimed =>
    obtain ⟨j, hj, rfl, rfl⟩ := JobTable.claim?_some claimed
    rintro k ⟨⟩
    exact ⟨id, j, es, [], rfl, fun _ => List.not_mem_nil, ⟨s, hr, htb ▸ hj⟩, rfl, rfl, rfl, fun _ _ _ => rfl⟩
  | enlist | restore | resume => exact nofun

/-- Every step keeps what the shell carries as it was found. -/
theorem step (h : Attested A es s.shell) (hr : Reachable A es s) (ha : A es e) (hs : Step s e s') :
    Attested A (e :: es) s'.shell := by
  have still := fun hne hx hl => mono h hr ha hs hne hx hl
  cases hs with
  | move moves => exact move h hr ha moves
  | change changes => exact change h hr ha changes
  | lock at_ free => trivial
  | @unlock id c at_ =>
    have := still nofun (fun _ => rfl) rfl
    rw [at_] at this
    cases c with
    | none => exact nofun
    | some k => exact this k rfl
  | announce at_ =>
    have := still nofun (fun _ => rfl) rfl
    rw [at_] at this
    exact this
  | enter | survey | poll | record | conclude | inform | leave => exact still nofun (fun _ => rfl) rfl

/-- Every run keeps what the shell carries as it was found. -/
theorem of_reachable (h : Reachable A es s) : Attested A es s.shell := by
  have := h.invariant (P := fun es s => Reachable A es s ∧ Attested A es s.shell)
    (fun hp ha hs => ⟨hp.1.step ha hs, step hp.2 hp.1 ha hs⟩) ⟨.refl, trivial⟩
  exact this.2

end Attested

/-! ## The answer -/

/-- A job that was continued in the foreground answers with a status, for every order of the steps of the shell and the
collector. The job was claimed, and no job since:
1. Whatever the system answers, the status is the one that a foreground wait was told of last, since the claim, for the last
stage of the job, and it is not known where there is none.
2. On an orderly system, the job is one of a registered pipeline. The last stage was collected once. If that was before the
claim, by the collector or by an earlier wait, the status is not known; else it is the status of the last stage. -/
theorem foreground_status (h : Reachable A es s) (hs : s.shell = .answering (.broughtToForeground (.ok (.finished status)))) :
    ∃ id j before since, es = since ++ .claim id :: before ∧ (∀ i, .claim i ∉ since) ∧
      (∃ s₀, Reachable A before s₀ ∧ s₀.table.find? id = some j) ∧
      status = (awaitedIn since j.members.getLast?).head?.getD .unknown ∧
      ((∀ es e, A es e → Orderly es e) → ∃ l last exit, (id, l) ∈ registeredIn before ∧ l.pids.getLast? = some last ∧
        exitsIn es last = [exit] ∧ exit ≠ .unknown ∧ status = if last ∈ collectedIn before then .unknown else exit) := by
  have hatt := Attested.of_reachable h
  rw [hs] at hatt
  obtain ⟨g, ⟨id, j, before, since, ht⟩, hempty⟩ := hatt status rfl
  have hfound := ht.found
  rw [ht.stage] at hfound
  refine ⟨id, j, before, since, ht.history, ht.latest, ht.claimed, hfound, fun hA => ?_⟩
  obtain ⟨l, hl, hlaunched, hg, hm⟩ := ht.registered hA
  have hr := h.weaken hA
  have hproper := Ledger.Proper.of_reachable hr
  obtain ⟨last, hlast⟩ := Option.ne_none_iff_exists'.1 fun hn => hproper.nonempty l hlaunched (List.getLast?_eq_none_iff.1 hn)
  have hmem : last ∈ l.pids := List.mem_of_getLast? hlast
  -- The last stage was collected, and once.
  have hcollected : last ∈ collectedIn es := by
    by_contra hn
    have hleft : last ∈ (ledger es).left l := mem_leftOf.2 ⟨hmem, hn⟩
    rw [hempty hA l hlaunched hg] at hleft
    cases hleft
  obtain ⟨exit, hexit⟩ : ∃ exit, exitsIn es last = [exit] := by
    have hpos := List.length_pos_iff.2 (mem_collectedIn_iff.1 hcollected)
    exact List.length_eq_one_iff.1 (Nat.le_antisymm (length_exitsIn hr last) hpos)
  refine ⟨l, last, exit, hl, hlast, hexit, ne_unknown_of_mem (hexit ▸ List.mem_singleton_self _), ?_⟩
  have hsplit : exitsIn since last ++ exitsIn before last = [exit] := by
    rw [← hexit, ht.history, exitsIn, exitsIn, exitsIn, List.filterMap_append]
    rfl
  rw [hfound, ← hm, hlast, ← ht.alone hA last (hm ▸ hmem)]
  by_cases hbefore : last ∈ collectedIn before
  · rw [if_pos hbefore]
    rcases List.append_eq_singleton_iff.1 hsplit with ⟨hnone, -⟩ | ⟨-, hnone⟩
    · rw [hnone]
      rfl
    · exact absurd hnone (mem_collectedIn_iff.1 hbefore)
  · rw [if_neg hbefore]
    rw [Decidable.not_not.1 (mt mem_collectedIn_iff.2 hbefore), List.append_nil] at hsplit
    rw [hsplit]
    rfl

namespace PipelineStatusAux

/-- A pipeline of two stages was launched in the background, and a pass begins. -/
def surveyed : List Event :=
  [.survey, .enter, .answer (.launched 1), .announce (.started 1 100 "a | b"), .enlist 1 ⟨100, [100, 101]⟩,
    .launch ⟨100, [100, 101]⟩ "a | b" true]

/-- The pass is about to wait on the group of the job. -/
def visiting : State where
  table := ⟨1, [{ id := 1, pgid := 100, command := "a | b", background := true, live := 2, members := [100, 101] }]⟩
  lock := some .collector
  collector := .visiting [100]
  notices := [.started 1 100 "a | b"]

/-- An orderly system leads there. -/
theorem reachable_visiting : Reachable Orderly surveyed visiting := by
  have r₀ : Reachable Orderly [] {} := .refl
  have r₁ := r₀.step (e := .launch ⟨100, [100, 101]⟩ "a | b" true) ⟨List.not_mem_nil, by decide, by decide, nofun⟩
    (.move (.launch ..))
  have r₂ := r₁.step (by trivial) (.change (.enlist rfl))
  have r₃ := r₂.step (by trivial) (.announce rfl)
  have r₄ := r₃.step (by trivial) (.move (.answer _))
  have r₅ := r₄.step (by trivial) (.enter rfl rfl)
  exact r₅.step (by trivial) (.survey rfl)

/-- The pass takes one end, and the job is continued in the foreground and ends with the other. -/
def divided (w w' : WaitStatus) : List Event :=
  [.finish 100, .complete 100, .await 100 (.ok w'), .signal 100 .cont (.ok ()), .unlock, .claim 1, .lock, .foreground 1, .leave,
    .poll 100 (.ok .stillAlive), .record ⟨fun _ => none, w⟩, .poll 100 (.ok w)] ++ surveyed

end PipelineStatusAux

/-- The collector takes the first stage and the foreground wait the last one: the answer is the status of that. -/
theorem foreground_status_of_last_stage :
    ∃ es s, Reachable Orderly es s ∧ s.shell = .answering (.broughtToForeground (.ok (.finished (.exited 3)))) ∧
      collectedIn es = [101, 100] ∧
      ∃ id l last, (id, l) ∈ registeredIn es ∧ l.pids.getLast? = some last ∧ exitsIn es last = [.exited 3] := by
  have r₁ := reachable_visiting.step (e := .poll 100 (.ok (.exited 100 5)))
    ⟨⟨100, [100, 101]⟩, by decide, rfl, by decide, by rintro _ ⟨⟩; decide⟩ (.poll rfl _)
  have r₂ := r₁.step (e := .record ⟨fun _ => none, .exited 100 5⟩) (by trivial) (.record rfl rfl)
  have r₃ := r₂.step (e := .poll 100 (.ok .stillAlive)) ⟨⟨100, [100, 101]⟩, by decide, rfl, by decide, nofun⟩ (.poll rfl _)
  have r₄ := r₃.step (by trivial) (.leave rfl)
  have r₅ := r₄.step (by trivial) (.move (.foreground 1))
  have r₆ := r₅.step (by trivial) (.lock rfl rfl)
  have r₇ := r₆.step (by trivial) (.change (.claim rfl))
  have r₈ := r₇.step (by trivial) (.unlock rfl)
  have r₉ := r₈.step (by trivial) (.move (.continued ..))
  have r₁₀ := r₉.step (e := .await 100 (.ok (.exited 101 3)))
    ⟨⟨100, [100, 101]⟩, by decide, rfl, by decide, by rintro _ ⟨⟩; decide⟩ (.move (.await rfl rfl))
  have r₁₁ := r₁₀.step (by trivial) (.move (.complete rfl))
  have r₁₂ : Reachable Orderly (divided (.exited 100 5) (.exited 101 3)) _ := r₁₁.step (by trivial) (.change (.finish rfl))
  have hs : ShellPoint.answering _ = .answering (.broughtToForeground (.ok (.finished (.exited 3)))) := rfl
  obtain ⟨id, j, before, since, hes, -, -, -, hlast⟩ := foreground_status r₁₂ hs
  obtain ⟨l, last, exit, hl, hlast, hexit, -, hstatus⟩ := hlast fun _ _ h => h
  refine ⟨_, _, r₁₂, hs, by decide, id, l, last, ?_, hlast, ?_⟩
  · rw [hes, registeredIn, List.filterMap_append]
    exact List.mem_append_right _ hl
  · split at hstatus
    · cases hstatus
    · rw [hstatus]
      exact hexit

/-- The collector takes the last stage, and the foreground wait the rest: the answer is not the status of the last stage. -/
theorem foreground_status_lost :
    ∃ es s, Reachable Orderly es s ∧ s.shell = .answering (.broughtToForeground (.ok (.finished .unknown))) ∧
      registeredIn es = [(1, ⟨100, [100, 101]⟩)] ∧ exitsIn es 101 = [.exited 3] := by
  have r₁ := reachable_visiting.step (e := .poll 100 (.ok (.exited 101 3)))
    ⟨⟨100, [100, 101]⟩, by decide, rfl, by decide, by rintro _ ⟨⟩; decide⟩ (.poll rfl _)
  have r₂ := r₁.step (e := .record ⟨fun _ => none, .exited 101 3⟩) (by trivial) (.record rfl rfl)
  have r₃ := r₂.step (e := .poll 100 (.ok .stillAlive)) ⟨⟨100, [100, 101]⟩, by decide, rfl, by decide, nofun⟩ (.poll rfl _)
  have r₄ := r₃.step (by trivial) (.leave rfl)
  have r₅ := r₄.step (by trivial) (.move (.foreground 1))
  have r₆ := r₅.step (by trivial) (.lock rfl rfl)
  have r₇ := r₆.step (by trivial) (.change (.claim rfl))
  have r₈ := r₇.step (by trivial) (.unlock rfl)
  have r₉ := r₈.step (by trivial) (.move (.continued ..))
  have r₁₀ := r₉.step (e := .await 100 (.ok (.exited 100 5)))
    ⟨⟨100, [100, 101]⟩, by decide, rfl, by decide, by rintro _ ⟨⟩; decide⟩ (.move (.await rfl rfl))
  have r₁₁ := r₁₀.step (by trivial) (.move (.complete rfl))
  have r₁₂ : Reachable Orderly (divided (.exited 101 3) (.exited 100 5)) _ := r₁₁.step (by trivial) (.change (.finish rfl))
  exact ⟨_, _, r₁₂, rfl, by decide, by decide⟩

end JobShell
