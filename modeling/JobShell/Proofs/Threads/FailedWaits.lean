import JobShell.Proofs.Threads.BothCollectors

/-!
# Foreground waits that fail

A foreground wait fails when it is answered with an error that is neither an interruption nor the want of children. What it had
collected until then was collected for good, but nothing of it is written down: `left_by_failed_wait` says what the table holds when
the shell gives up. The job of a pipeline that was continued is put back with the count that it had when it was claimed, so it counts
the members that the wait collected as if they were still to come; and a pipeline that was just launched has no job at all, however many
of its members are left. It never gets one later (`lost_for_good`).

The failed wait leaves the table and the collector as they were, so what the collector does until the shell gives up it could have done
before the wait failed (`reachable_before`), in a session whose books balance.
-/

namespace JobShell

/-- A group that was launched has no job, and the shell does not have it in hand. -/
structure Lost (g : Pid) (es : List Event) (s : State) : Prop where
  launched : g ∈ groupsIn es
  untracked : ∀ j ∈ s.table.jobs, j.pgid ≠ g
  released : s.shell.group? ≠ some g

namespace FailedWaitsAux

open JobTable HistoriesAux ExclusionAux

variable {es new : List Event} {e : Event} {s s' s'' : State} {f : Foreground} {q : WaitProgress} {result : WaitResult} {cause : Errno}
  {p p' : ShellPoint} {g : Pid}

/-- A wait is failed by an error that tells of no process. -/
theorem ledger_of_failure (hfail : f.group.observe q result = .settled (.error cause)) (new es : List Event) :
    ledger (new ++ .settle f.group.pgid result :: es) = ledger (new ++ es) := by
  have none_ended : result.ended? = none := (BothCollectorsAux.observe_settled hfail).1
  have settled : ledger (.settle f.group.pgid result :: es) = ledger es := ledger_of_quiet rfl rfl none_ended
  simp only [ledger, launchedIn, registeredIn, collectedIn, List.filterMap_append, Ledger.mk.injEq] at settled ⊢
  rw [settled.1, settled.2.1, settled.2.2]
  exact ⟨rfl, rfl, rfl⟩

/-- What a step of the collector is assumed to be answered leans on no more than the books. -/
theorem orderly_of_ledger {es es' : List Event} (hl : ledger es' = ledger es) (ho : Orderly es' e) : Orderly es e := by
  have launched : launchedIn es' = launchedIn es := congrArg Ledger.launched hl
  have answers : ∀ pgid result, Answers es' pgid result → Answers es pgid result := by
    intro pgid result ha
    rcases result with cause | w
    · simpa only [Answers, hl, launched] using ha
    · simpa only [Answers, hl, launched] using ha
  cases e with
  | launch l command background => simpa only [Orderly, groupsIn, launched] using ho
  | await pgid result | settle pgid result | poll pgid result => exact answers pgid result ho
  | _ => trivial

/-- A step while the shell has still to give up a failed wait is one of the collector, which it makes wherever the shell stands. -/
theorem step_elsewhere (hat : s.shell = .settling f (.error cause)) (hs : Step s e s') (hne : e ≠ .giveUp f.group.pgid)
    (p : ShellPoint) : s'.shell = .settling f (.error cause) ∧ Step { s with shell := p } e { s' with shell := p } := by
  cases hs with
  | move moves =>
    rw [hat] at moves
    cases moves
  | change changes =>
    rw [hat] at changes
    cases changes
    exact absurd rfl hne
  | lock at_ | unlock at_ | announce at_ =>
    rw [hat] at at_
    cases at_
  | enter at_ free => exact ⟨hat, .enter at_ free⟩
  | survey at_ => exact ⟨hat, .survey at_⟩
  | poll at_ result => exact ⟨hat, .poll (s := { s with shell := p }) at_ result⟩
  | record at_ recorded => exact ⟨hat, .record at_ recorded⟩
  | conclude at_ ended => exact ⟨hat, .conclude at_ ended⟩
  | inform at_ => exact ⟨hat, .inform at_⟩
  | leave at_ => exact ⟨hat, .leave at_⟩

/-- Until the shell gives up, the collector is where it could have come to before the wait failed. -/
theorem reachable_before (h : Reachable Orderly es s) (hat : s.shell = .waiting f q)
    (hfail : f.group.observe q result = .settled (.error cause))
    (hrun : Run Orderly (.settle f.group.pgid result :: es) { s with shell := .settling f (.error cause) }
      (new ++ .settle f.group.pgid result :: es) s')
    (hne : Event.giveUp f.group.pgid ∉ new) :
    s'.shell = .settling f (.error cause) ∧ Reachable Orderly (new ++ es) { s' with shell := .waiting f q } := by
  generalize hes : Event.settle f.group.pgid result :: es = es₀ at hrun
  generalize hnew : new ++ es₀ = es' at hrun
  induction hrun generalizing new with
  | refl =>
    obtain rfl := List.append_cancel_right (hnew.trans (List.nil_append es₀).symm)
    refine ⟨rfl, ?_⟩
    have same : { s with shell := .waiting f q } = s := by rw [← hat]
    show Reachable Orderly es { s with shell := .waiting f q }
    rw [same]
    exact h
  | @step es' e s₁ s₂ before assumed next ih =>
    obtain ⟨old, rfl⟩ := before.history
    obtain rfl := List.append_cancel_right (hnew.trans (List.cons_append ..).symm)
    obtain ⟨settling, reached⟩ := ih (fun hm => hne (List.mem_cons_of_mem _ hm)) rfl
    obtain ⟨stays, elsewhere⟩ := step_elsewhere settling next (fun he => hne (he ▸ List.mem_cons_self)) (.waiting f q)
    subst hes
    have orderly : Orderly (old ++ es) e := orderly_of_ledger (ledger_of_failure hfail old es) assumed
    exact ⟨stays, .step reached orderly elsewhere⟩

end FailedWaitsAux

open FailedWaitsAux ExclusionAux HistoriesAux JobTable

variable {es new : List Event} {e : Event} {s s' : State} {f : Foreground} {q : WaitProgress} {result : WaitResult} {cause : Errno}
  {g : Pid}

/-- What a failed wait leaves, at the moment the shell gives up, whatever the collector does meanwhile. It was a wait for a pipeline
that was launched. If it was for a job, the job is in the table and counts the members that neither thread has collected and, once more,
the ones that the wait has collected. If the pipeline was just launched, no job has its group. -/
theorem left_by_failed_wait (h : Reachable Orderly es s) (hat : s.shell = .waiting f q)
    (hfail : f.group.observe q result = .settled (.error cause))
    (hrun : Run Orderly (.settle f.group.pgid result :: es) { s with shell := .settling f (.error cause) }
      (new ++ .settle f.group.pgid result :: es) s')
    (hne : Event.giveUp f.group.pgid ∉ new) :
    ∃ l ∈ launchedIn (new ++ es), l.pgid = f.group.pgid ∧
      (f.claimed.isSome → ∃ j ∈ (f.giveUp s'.table).jobs, j.pgid = l.pgid ∧
        j.live = ((ledger (new ++ es)).left l).length + q.collected) ∧
      (f.claimed.isNone → ∀ j ∈ (f.giveUp s'.table).jobs, j.pgid ≠ l.pgid) := by
  obtain ⟨-, reached⟩ := reachable_before h hat hfail hrun hne
  have books := Ledger.Balanced.of_reachable reached
  obtain ⟨l, ⟨hl, hg, hserves⟩, hexpected⟩ := books.covered
  refine ⟨l, hl, hg, fun hc => ?_, fun hc => ?_⟩
  · obtain ⟨⟨id, c⟩, hf⟩ := Option.isSome_iff_exists.1 hc
    rw [hf] at hserves
    obtain ⟨j, hj, hjg, hlive⟩ := hserves
    -- To put the job back changes neither its group nor its count.
    have shown : ((f.giveUp s'.table).jobs.map fun j => (j.pgid, j.live)) = s'.table.jobs.map fun j => (j.pgid, j.live) := by
      rw [Foreground.giveUp, hf]
      exact map_modify _ fun _ => rfl
    obtain ⟨k, hk, he⟩ := List.mem_map.1 (shown ▸ List.mem_map_of_mem hj)
    obtain ⟨hkg, hkl⟩ := Prod.mk.inj he
    exact ⟨k, hk, hkg.trans hjg, hkl.trans (hlive.trans hexpected)⟩
  · have hf := Option.isNone_iff_eq_none.1 hc
    rw [hf] at hserves
    intro j hj
    rw [Foreground.giveUp, hf] at hj
    exact BalanceAux.no_job_of_unregistered books.registry hserves.2 hj

/-- A job of three processes is continued in the foreground; the wait collects one of them and then fails. The job counts three again,
though two are left. -/
theorem left_by_failed_wait_of_three :
    ∃ es s f q, Reachable Orderly es s ∧ s.shell = .waiting f q ∧ f.group.observe q (.error .invalid) = .settled (.error .invalid) ∧
      (launchedIn es).map (fun l => ((ledger es).left l).length) = [2] ∧ (f.giveUp s.table).jobs.map (·.live) = [3] ∧
      ∃ l ∈ launchedIn es, ∃ j ∈ (f.giveUp s.table).jobs, j.pgid = l.pgid ∧ j.live = ((ledger es).left l).length + q.collected := by
  have r₀ : Reachable Orderly [] {} := .refl
  have r₁ := r₀.step (e := .launch ⟨100, [100, 101, 102]⟩ "a | b | c" true)
    ⟨List.not_mem_nil, by decide, by decide, nofun⟩ (.move (.launch ..))
  have r₂ := r₁.step (by trivial) (.change (.enlist rfl))
  have r₃ := r₂.step (by trivial) (.announce rfl)
  have r₄ := r₃.step (by trivial) (.move (.answer _))
  have r₅ := r₄.step (by trivial) (.move (.foreground 1))
  have r₆ := r₅.step (by trivial) (.lock rfl rfl)
  have r₇ := r₆.step (by trivial) (.change (.claim rfl))
  have r₈ := r₇.step (by trivial) (.unlock rfl)
  have r₉ := r₈.step (by trivial) (.move (.continued ..))
  have r₁₀ := r₉.step (e := .await 100 (.ok (.exited 100 0)))
    ⟨_, List.mem_cons_self, rfl, by decide, by rintro _ ⟨⟩; decide⟩ (.move (.await rfl rfl))
  have fails : GroupWait.observe ⟨100, 3, some 102⟩ ⟨1, .unknown⟩ (.error .invalid) = .settled (.error .invalid) := rfl
  have undisturbed : Event.giveUp 100 ∉ [] := List.not_mem_nil
  obtain ⟨l, hl, -, counted, -⟩ := left_by_failed_wait r₁₀ rfl fails .refl undisturbed
  exact ⟨_, _, _, _, r₁₀, rfl, fails, by decide, by decide, l, hl, counted rfl⟩

namespace Lost

/-- What is lost stays lost with every step: a group is registered only out of the shell's hand, and comes into it only when it is
launched or from a job. -/
theorem step (h : Lost g es s) (hw : s.table.WellFormed) (hx : Exclusive es s) (ha : FreshGroups es e) (hs : Step s e s') :
    Lost g (e :: es) s' := by
  have launched : g ∈ groupsIn (e :: es) := groupsIn_cons e es h.launched
  have untracked : ∀ {t : JobTable}, (t.jobs.map (·.pgid)).Sublist (s.table.jobs.map (·.pgid)) → ∀ j ∈ t.jobs, j.pgid ≠ g := by
    intro t ht j hj
    obtain ⟨k, hk, hkg⟩ := List.mem_map.1 (ht.subset (List.mem_map_of_mem hj))
    rw [← hkg]
    exact h.untracked k hk
  cases hs with
  | move moves =>
    refine ⟨launched, h.untracked, fun hg => ?_⟩
    rcases moves_group moves with hn | ⟨he, -⟩ | ⟨l, command, background, rfl, hl⟩
    · exact absurd (hn.symm.trans hg) nofun
    · exact h.released (he.symm.trans hg)
    · obtain rfl := Option.some.inj (hl.symm.trans hg)
      exact ha h.launched
  | @change e t p changes =>
    have hfree : ∀ g, s.shell.group? = some g → s.shell.isUntracked = true → ∀ j ∈ s.table.jobs, j.pgid ≠ g := by
      intro g hg hu j hj he
      rw [(hx.closed g hg j hj he).2] at hu
      cases hu
    refine ⟨launched, ?_, fun hg => ?_⟩
    · rcases changes_groups hw changes hfree with hsub | ⟨g', hg', -, he⟩
      · exact untracked hsub
      · intro j hj hjg
        have hmem : j.pgid ∈ t.jobs.map (·.pgid) := List.mem_map_of_mem hj
        rw [he, List.mem_append, List.mem_singleton, hjg] at hmem
        rcases hmem with hmem | rfl
        · obtain ⟨k, hk, hkg⟩ := List.mem_map.1 hmem
          exact h.untracked k hk hkg
        · exact h.released hg'
    · obtain ⟨-, -, ⟨j, hj, hjg⟩, -⟩ := changes_claimed hx.distinct changes hg
      exact h.untracked j hj hjg
  | lock at_ free => exact ⟨launched, h.untracked, nofun⟩
  | @unlock id c at_ =>
    refine ⟨launched, h.untracked, fun hg => h.released ?_⟩
    rw [at_]
    exact (group?_afterClaim id c).symm.trans hg
  | announce at_ => exact ⟨launched, h.untracked, nofun⟩
  | record at_ recorded =>
    obtain rfl := congrArg Prod.fst recorded
    exact ⟨launched, untracked (map_childStatus_sublist _ (fun _ _ => rfl) (fun _ _ => rfl) _ _), h.released⟩
  | conclude at_ ended =>
    obtain rfl := congrArg Prod.fst ended
    exact ⟨launched, untracked (map_markFinished_sublist _ _ _), h.released⟩
  | enter | survey | poll | inform | leave => exact ⟨launched, h.untracked, h.released⟩

/-- What is lost stays lost over every run in which no group id is used twice. -/
theorem of_run {es' : List Event} (h : Lost g es s) (h0 : Reachable FreshGroups es s) (hr : Run FreshGroups es s es' s') :
    Lost g es' s' := by
  induction hr with
  | refl => exact h
  | step before assumed next ih =>
    have reached := h0.trans before
    exact ih.step (Sound.of_run reached Sound.start).wellFormed (Exclusive.of_reachable reached) assumed next

end Lost

/-- A pipeline whose wait fails right after its launch is lost for good: no job ever has its group, in no run from there in which no
group id is used twice, though any of its members may be left. -/
theorem lost_for_good (h : Reachable Orderly es s) (hat : s.shell = .waiting f q)
    (hopen : f.group.isComplete q = false) (hfail : f.group.observe q result = .settled (.error cause))
    (hrun : Run Orderly (.settle f.group.pgid result :: es) { s with shell := .settling f (.error cause) }
      (new ++ .settle f.group.pgid result :: es) s')
    (hne : Event.giveUp f.group.pgid ∉ new) (hc : f.claimed.isNone) {later : List Event} {s'' : State}
    (hr : Run FreshGroups (.giveUp f.group.pgid :: (new ++ .settle f.group.pgid result :: es))
      { s' with table := f.giveUp s'.table, shell := .answering (f.reply (.error cause)) } later s'') :
    ∀ j ∈ s''.table.jobs, j.pgid ≠ f.group.pgid := by
  have fresh : ∀ es e, Orderly es e → FreshGroups es e := fun _ _ => freshGroups_of_orderly
  obtain ⟨l, hl, hg, -, unregistered⟩ := left_by_failed_wait h hat hfail hrun hne
  obtain ⟨settling, -⟩ := reachable_before h hat hfail hrun hne
  have failed : Step s (.settle f.group.pgid result) { s with shell := .settling f (.error cause) } :=
    .move (by rw [hat]; exact .settle hopen hfail)
  have gaveUp : Step s' (.giveUp f.group.pgid)
      { s' with table := f.giveUp s'.table, shell := .answering (f.reply (.error cause)) } :=
    .change (by rw [settling]; exact .giveUp _ f cause)
  have before : Reachable FreshGroups (.settle f.group.pgid result :: es) { s with shell := .settling f (.error cause) } :=
    .step (h.weaken fresh) (by trivial) failed
  have reached := (before.trans (hrun.weaken fresh)).step (by trivial) gaveUp
  have lost : Lost f.group.pgid (.giveUp f.group.pgid :: (new ++ .settle f.group.pgid result :: es))
      { s' with table := f.giveUp s'.table, shell := .answering (f.reply (.error cause)) } := by
    refine ⟨?_, fun j hj => hg ▸ unregistered hc j hj, nofun⟩
    have books := ledger_of_failure hfail new es
    have same : launchedIn (new ++ .settle f.group.pgid result :: es) = launchedIn (new ++ es) := congrArg Ledger.launched books
    refine groupsIn_cons _ _ ?_
    rw [groupsIn, same, ← hg]
    exact List.mem_map_of_mem hl
  exact (lost.of_run reached hr).untracked

end JobShell
