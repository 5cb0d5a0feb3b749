import JobShell.Proofs.Sessions.FailedOperations
import JobShell.Proofs.Threads.Resumption
import JobShell.Proofs.Threads.Sessions

/-!
# A job that cannot be continued in the foreground

To continue a job in the foreground, the shell claims it under the lock, signals its group, and puts the job back if the signal fails.
The collector may make its passes before the claim and after it. `Phase.holding` says what the table is in between: the one that
the collector's changes alone lead to, with the claimed job marked in it. No pass that begins after the claim visits the group of the
marked job, none is on when it is marked, and a process that another group's wait tells of does not belong to the job; so none of the
changes is about the job (`spared`), and what is put back is the job as it was.

`failed_operations` is what failed operations leave of a session, this one in every interleaving as well.
-/

namespace JobShell

/-- The group that the collector waited on last. -/
def polledIn : List Event → Option Pid
  | [] => none
  | .poll pgid _ :: _ => some pgid
  | _ :: es => polledIn es

/-- No process belongs to two jobs of this table: one that a wait on a group tells of belongs to no job of another group. -/
def OwnProcesses (t : JobTable) : Assumption
  | es, .record r => ∀ g, polledIn es = some g → ∀ j ∈ t.jobs, r.BelongsTo j → j.pgid = g
  | _, _ => True

/-- What is recorded comes from the group that was waited on last, which is visited again. This is so in every run (`sourced_step`). -/
def Sourced (es : List Event) (s : State) : Prop :=
  ∀ w work, s.collector = .recording w work → ∃ g rest, work = g :: rest ∧ polledIn es = some g

/-- In the new events the job was claimed and put back. Its entry was the same when it was claimed and when it was put back, since then
only the collector changed the table, and altogether the table is the one that the collector's changes alone lead to. -/
structure PutBack (A : Assumption) (es : List Event) (s : State) (id : JobId) (new : List Event) (s' : State) : Prop where
  entry : ∃ before middle late k m j, new = late ++ .restore id :: (middle ++ .claim id :: before) ∧
    Run A es s (before ++ es) k ∧ k.shell = .claiming id ∧ k.table.find? id = some j ∧
    Run A es s (.restore id :: (middle ++ .claim id :: before) ++ es) m ∧ m.table.find? id = some j ∧
    s'.table = (m.table.applyAll (changesIn late)).1
  table : s'.table = (s.table.applyAll (changesIn new)).1

/-- The reply is the error of a signal to a job that was to be continued in the foreground. -/
def Reply.isRefusal : Reply → Bool
  | .broughtToForeground (.error (.signal _ _)) => true
  | _ => false

namespace FailedClaimsAux

open JobTable ResumptionAux CollectorPoint

/-- The shell is in no operation any more that a signal can fail. -/
def pastSignal : ShellPoint → Bool
  | .unlocking _ none | .waiting _ _ | .settling _ _ => true
  | .announcing _ reply | .answering reply => !reply.isRefusal
  | _ => false

/-- The job is marked in the table that the changes of the collector alone lead to, and out of the collector's reach. -/
structure Held (s : State) (id : JobId) (j : Job) (new : List Event) (s' : State) : Prop where
  table : s'.table = (s.table.applyAll (changesIn new)).1.modify id Job.claimed
  entry : (s.table.applyAll (changesIn new)).1.find? id = some j
  unvisited : j.pgid ∉ s'.collector.work

/-- The job was claimed in these events, when it was this one. -/
def Marked (A : Assumption) (es : List Event) (s : State) (id : JobId) (j : Job) (new : List Event) : Prop :=
  ∃ before middle k, new = middle ++ .claim id :: before ∧ Run A es s (before ++ es) k ∧ k.shell = .claiming id ∧
    k.table.find? id = some j

/-- How far the shell has come, since it was to continue the job in the state `s`. -/
inductive Phase (A : Assumption) (es : List Event) (s : State) (id : JobId) (new : List Event) (s' : State) : Prop
  | locking (at_ : s'.shell = .locking id) (table : s'.table = (s.table.applyAll (changesIn new)).1)
  | claiming (at_ : s'.shell = .claiming id) (table : s'.table = (s.table.applyAll (changesIn new)).1)
  | holding {j : Job} (at_ : s'.shell = .unlocking id (some j.claim) ∨ s'.shell = .continuing id j.claim ∨
      ∃ cause, s'.shell = .restoring id j.claim cause) (marked : Marked A es s id j new) (held : Held s id j new s')
  | restored {cause : Errno} (at_ : s'.shell = .answering (.broughtToForeground (.error (.signal id cause))))
    (back : PutBack A es s id new s')
  | past (at_ : pastSignal s'.shell = true)

variable {A : Assumption} {s s' s'' : State} {id : JobId} {j : Job} {es new : List Event} {e : Event}

/-! ### The collector -/

/-- The source of what is recorded is known after every step. -/
theorem sourced_step (h : Sourced es s) (hs : Step s e s') : Sourced (e :: es) s' := by
  have shell : s'.collector = s.collector → polledIn (e :: es) = polledIn es → Sourced (e :: es) s' := fun hc hp w work hw => by
    rw [hp]
    exact h w work (hc.symm.trans hw)
  cases hs with
  | move moves =>
    refine shell rfl ?_
    revert moves
    generalize s.shell = p
    intro moves
    cases moves <;> rfl
  | change changes =>
    refine shell rfl ?_
    revert changes
    generalize s.shell = p
    generalize s.table = t
    intro changes
    cases changes <;> rfl
  | lock at_ free => exact shell rfl rfl
  | unlock at_ => exact shell rfl rfl
  | announce at_ => exact shell rfl rfl
  | @poll pgid rest at_ result =>
    intro w work hw
    dsimp only at hw
    rcases afterPoll_cases pgid rest result with he | ⟨-, he⟩ | ⟨w', -, he⟩ | ⟨-, he⟩ <;> rw [he] at hw <;> cases hw
    exact ⟨pgid, rest, rfl, rfl⟩
  | @record r work t n at_ recorded =>
    cases n <;> nofun
  | @conclude pgid work t n at_ ended =>
    cases n <;> nofun
  | enter | survey | inform | leave => nofun

/-- A step leaves the collector no group to visit that it had not before, unless it is a survey. -/
theorem work_step (hs : Step s e s') : s'.collector.work ⊆ s.collector.work ∨ s'.collector.work = s.table.backgroundGroups := by
  cases hs with
  | move | change | lock | unlock | announce => exact Or.inl (List.Subset.refl _)
  | enter at_ free => exact Or.inl (List.nil_subset _)
  | survey at_ => exact Or.inr rfl
  | poll at_ result =>
    left
    rw [at_]
    exact work_afterPoll _ _ _
  | record at_ recorded =>
    left
    rw [at_, work_tell]
    exact List.Subset.refl _
  | conclude at_ ended =>
    left
    rw [at_, work_tell]
    exact List.subset_cons_self _ _
  | inform at_ =>
    left
    rw [at_]
    exact List.Subset.refl _
  | leave at_ => exact Or.inl (List.nil_subset _)

/-- A survey passes over the marked job, and no other job has its group. -/
theorem unvisited_step {u : JobTable} (hu : Tidy none u) (hj : u.find? id = some j)
    (ht : s.table = u.modify id Job.claimed) (hv : j.pgid ∉ s.collector.work) (hs : Step s e s') : j.pgid ∉ s'.collector.work := by
  rcases work_step hs with hsub | hsurvey
  · exact fun hm => hv (hsub hm)
  · have hmarked : (u.modify id Job.claimed).WellFormed := hu.wellFormed.modify (fun _ => rfl) fun _ _ => rfl
    rw [hsurvey, ht, mem_backgroundGroups hmarked]
    rintro ⟨k, hk, hopen, hg⟩
    obtain ⟨hmem, rfl⟩ := (find?_eq_some_iff hu.wellFormed).1 hj
    rcases (mem_modify hu.wellFormed hmem).1 hk with ⟨hk, hne⟩ | rfl
    · exact hne (congrArg Job.id (hu.eq_of_pgid hk hmem hg))
    · cases hopen

/-- A tidy table is tidy after the changes of the collector. -/
theorem tidy_applyAll {t : JobTable} (h : Tidy none t) (cs : List Change) : Tidy none (t.applyAll cs).1 := by
  induction cs generalizing t with
  | nil => exact h
  | cons c cs ih => exact ih (h.apply c)

/-- The changes of the collector leave each job the group and the members that it had. -/
theorem origin_of_applyAll {t : JobTable} {cs : List Change} (hj : j ∈ (t.applyAll cs).1.jobs) :
    ∃ i ∈ t.jobs, i.pgid = j.pgid ∧ i.members = j.members := by
  induction cs generalizing t with
  | nil => exact ⟨j, hj, rfl, rfl⟩
  | cons c cs ih =>
    obtain ⟨k, hk, hg, hm⟩ := ih hj
    have hsub := map_apply_sublist (t := t) (fun i => (i.pgid, i.members)) (fun _ _ => rfl) (fun _ _ => rfl) c
    obtain ⟨i, hi, he⟩ := List.mem_map.1 (hsub.subset (List.mem_map_of_mem hk))
    obtain ⟨hpgid, hmembers⟩ := Prod.mk.inj he
    exact ⟨i, hi, hpgid.trans hg, hmembers.trans hm⟩

/-- No change that the collector makes while a job is held is about the job. -/
theorem spared (ht : Tidy none s.table) (hsrc : Sourced (new ++ es) s') (held : Held s id j new s')
    (ho : OwnProcesses s.table (new ++ es) e) (hs : Step s' e s'') : ∀ c, e.change? = some c →
    ∀ k, (s.table.applyAll (changesIn new)).1.concerned? c = some k → k.id ≠ id := by
  have hu : ((s.table.applyAll (changesIn new)).1).WellFormed := ht.wellFormed.applyAll _
  obtain ⟨hmem, hid⟩ := (find?_eq_some_iff hu).1 held.entry
  intro c hc k hk hkid
  obtain rfl := hu.eq_of_id (mem_of_concerned? hk) hmem (hkid.trans hid.symm)
  cases hs with
  | @record r work t n at_ recorded =>
    obtain rfl := Option.some.inj hc
    obtain ⟨g, rest, rfl, hpolled⟩ := hsrc _ _ at_
    obtain ⟨i, hi, hg, hm⟩ := origin_of_applyAll hmem
    have hbelongs : r.BelongsTo i := by
      obtain ⟨pid, hp, hown⟩ := tellsOf_of_concerned? hk
      exact ⟨pid, hp, by rw [hm, hg]; exact hown⟩
    have hsame : k.pgid = g := hg.symm.trans (ho g hpolled i hi hbelongs)
    exact held.unvisited (by rw [at_, hsame]; exact List.mem_cons_self)
  | @conclude pgid work t n at_ ended =>
    obtain rfl := Option.some.inj hc
    have hsame : k.pgid = pgid := tellsOf_of_concerned? hk
    exact held.unvisited (by rw [at_, hsame]; exact List.mem_cons_self)
  | move moves =>
    revert moves hc
    generalize s'.shell = p
    intro hc moves
    cases moves <;> cases hc
  | change changes =>
    revert changes hc
    generalize s'.shell = p
    generalize s'.table = t
    intro hc changes
    cases changes <;> cases hc
  | lock | unlock | announce | enter | survey | poll | inform | leave => cases hc

/-- A held job is held after every step of the collector. -/
theorem held_collects (ht : Tidy none s.table) (hsrc : Sourced (new ++ es) s') (held : Held s id j new s')
    (ho : OwnProcesses s.table (new ++ es) e) (hs : Step s' e s'') (hc : Collects s' e s'') : Held s id j (e :: new) s'' := by
  have hu : Tidy none (s.table.applyAll (changesIn new)).1 := tidy_applyAll ht _
  have hfree := spared ht hsrc held ho hs
  refine ⟨?_, ?_, unvisited_step hu held.entry held.table held.unvisited hs⟩
  · rw [hc.table, changesIn_cons, applyAll_append, held.table]
    cases hch : e.change? with
    | none => rfl
    | some c =>
      rw [Option.toList_some, applyAll_single, applyAll_single, apply_claimed hu.wellFormed held.entry (hfree c hch)]
  · rw [changesIn_cons, applyAll_append]
    cases hch : e.change? with
    | none => exact held.entry
    | some c =>
      rw [Option.toList_some, applyAll_single]
      exact (find?_apply_of_ne hu.wellFormed (hfree c hch)).trans held.entry

/-- A held job is held after a step of the shell that leaves the table and the collector. -/
theorem held_shell (held : Held s id j new s') (ht : s''.table = s'.table) (hc : s''.collector = s'.collector)
    (he : e.change? = none) : Held s id j (e :: new) s'' := by
  have hsame : changesIn (e :: new) = changesIn new := by
    rw [changesIn_cons, he, Option.toList_none, List.append_nil]
  exact ⟨by rw [ht, hsame]; exact held.table, by rw [hsame]; exact held.entry, by rw [hc]; exact held.unvisited⟩

/-- A job that was marked stays one with more events. -/
theorem marked_cons (h : Marked A es s id j new) (e : Event) : Marked A es s id j (e :: new) := by
  obtain ⟨before, middle, k, rfl, hrest⟩ := h
  exact ⟨before, e :: middle, k, rfl, hrest⟩

/-! ### The shell -/

/-- What a foreground wait comes to is no refusal of a signal. -/
theorem isRefusal_reply (f : Foreground) (result : Except Errno ForegroundOutcome) : (f.reply result).isRefusal = false := by
  rw [Foreground.reply]
  cases f.claimed <;> cases result <;> rfl

/-- A notice does not bring the shell back to where a signal can fail. -/
theorem pastSignal_tell (n : Option Notice) (reply : Reply) : pastSignal (.tell n reply) = !reply.isRefusal := by
  cases n <;> rfl

/-- Where the shell just moves on and does not give its answer, it stays past the signal. -/
theorem past_moves {t : JobTable} {p p' : ShellPoint} (h : pastSignal p = true) (hm : p.Moves t e p')
    (hne : ∀ reply, e ≠ .answer reply) : pastSignal p' = true := by
  cases hm with
  | await | settle | complete => rfl
  | answer reply => exact absurd rfl (hne reply)
  | _ => cases h

/-- Where the shell changes the table, it stays past the signal. -/
theorem past_changes {t t' : JobTable} {p p' : ShellPoint} (h : pastSignal p = true) (hc : p.Changes t e t' p') :
    pastSignal p' = true := by
  cases hc with
  | finish | suspend => rw [pastSignal_tell, isRefusal_reply]; rfl
  | giveUp f cause => rw [pastSignal, isRefusal_reply]; rfl
  | _ => cases h

/-- The job that was put back stays so after every step of the collector. -/
theorem putBack_collects (h : PutBack A es s id new s') (hc : Collects s' e s'') : PutBack A es s id (e :: new) s'' := by
  obtain ⟨⟨before, middle, late, k, m, j, hnew, hk, hat, hj, hm, hback, hlate⟩, htable⟩ := h
  refine ⟨⟨before, middle, e :: late, k, m, j, by rw [hnew]; rfl, hk, hat, hj, hm, hback, ?_⟩, ?_⟩
  · rw [hc.table, hlate, changesIn_cons, applyAll_append]
  · rw [hc.table, htable, changesIn_cons, applyAll_append]

/-- Every step brings the shell on in its operation, or leaves it where it is, as long as it does not give its answer. -/
theorem phase_step (ht : Tidy none s.table) (hrun : Run (OwnProcesses s.table) es s (new ++ es) s') (hd : Disciplined s')
    (hsrc : Sourced (new ++ es) s') (h : Phase (OwnProcesses s.table) es s id new s') (ho : OwnProcesses s.table (new ++ es) e) (hs : Step s' e s'')
    (hne : ∀ reply, e ≠ .answer reply) : Phase (OwnProcesses s.table) es s id (e :: new) s'' := by
  have quiet : e.change? = none → changesIn (e :: new) = changesIn new := fun he => by
    rw [changesIn_cons, he, Option.toList_none, List.append_nil]
  rcases collects_or_shell hs with hc | ⟨hcol, hsh⟩
  · have collected : s'.table = (s.table.applyAll (changesIn new)).1 → s''.table = (s.table.applyAll (changesIn (e :: new))).1 :=
      fun htable => by rw [hc.table, htable, changesIn_cons, applyAll_append]
    cases h with
    | locking at_ table => exact .locking (hc.shell.trans at_) (collected table)
    | claiming at_ table => exact .claiming (hc.shell.trans at_) (collected table)
    | holding at_ marked held =>
      rw [← hc.shell] at at_
      exact .holding at_ (marked_cons marked e) (held_collects ht hsrc held ho hs hc)
    | restored at_ back => exact .restored (hc.shell.trans at_) (putBack_collects back hc)
    | past at_ => exact .past (by rw [hc.shell]; exact at_)
  · cases h with
    | locking at_ table =>
      rw [at_] at hsh
      rcases hsh with ⟨p, moves, -⟩ | ⟨t, p, changes, -⟩ | ⟨i, hi, rfl, rfl⟩ | ⟨i, c, hi, -⟩ | ⟨n, reply, hi, -⟩
      · cases moves
      · cases changes
      · obtain rfl := ShellPoint.locking.inj hi
        exact .claiming rfl (by rw [quiet rfl]; exact table)
      · cases hi
      · cases hi
    | claiming at_ table =>
      rw [at_] at hsh
      rcases hsh with ⟨p, moves, rfl⟩ | ⟨t, p, changes, rfl⟩ | ⟨i, hi, -⟩ | ⟨i, c, hi, -⟩ | ⟨n, reply, hi, -⟩
      · cases moves
        exact .past rfl
      · cases changes with
        | claim claimed =>
          obtain ⟨j, hj, rfl, rfl⟩ := claim?_some claimed
          -- The shell has the lock, so the collector has no group left to visit.
          have resting : s'.collector = .resting := hd.alone (by rw [at_]; rfl)
          refine .holding (j := j) (Or.inl rfl) ⟨new, [], s', rfl, hrun, at_, hj⟩ ⟨?_, ?_, ?_⟩
          · rw [quiet rfl, ← table]
            rfl
          · rw [quiet rfl, ← table]
            exact hj
          · show j.pgid ∉ s'.collector.work
            rw [resting]
            exact List.not_mem_nil
      · cases hi
      · cases hi
      · cases hi
    | @holding j at_ marked held =>
      rcases at_ with at_ | at_ | ⟨cause, at_⟩ <;> rw [at_] at hsh <;>
        rcases hsh with ⟨p, moves, rfl⟩ | ⟨t, p, changes, rfl⟩ | ⟨i, hi, -⟩ | ⟨i, c, hi, rfl, rfl⟩ | ⟨n, reply, hi, -⟩
      · cases moves
      · cases changes
      · cases hi
      · obtain ⟨rfl, rfl⟩ := ShellPoint.unlocking.inj hi
        exact .holding (Or.inr (Or.inl rfl)) (marked_cons marked _) (held_shell held rfl rfl rfl)
      · cases hi
      · cases moves with
        | continued => exact .past rfl
        | notContinued id c cause =>
          exact .holding (Or.inr (Or.inr ⟨cause, rfl⟩)) (marked_cons marked _) (held_shell held rfl rfl rfl)
      · cases changes
      · cases hi
      · cases hi
      · cases hi
      · cases moves
      · cases changes with
        | restore id c cause =>
          have hu := tidy_applyAll ht (changesIn new)
          have hfree : j.waited = false := by
            cases hw : j.waited with
            | false => rfl
            | true => cases hu.waited j ((find?_eq_some_iff hu.wellFormed).1 held.entry).1 hw
          have hback : s'.table.restore id j.claim = (s.table.applyAll (changesIn new)).1 := by
            rw [held.table]
            exact restore_claimed hu.wellFormed held.entry hfree
          obtain ⟨before, middle, k, rfl, hk, hat, hj⟩ := marked
          refine .restored rfl ⟨⟨before, middle, [], k, _, j, rfl, hk, hat, hj, hrun.step ho hs, ?_, rfl⟩, ?_⟩
          · show (s'.table.restore id j.claim).find? id = some j
            rw [hback]
            exact held.entry
          · rw [quiet rfl]
            exact hback
      · cases hi
      · cases hi
      · cases hi
    | restored at_ back =>
      rw [at_] at hsh
      rcases hsh with ⟨p, moves, -⟩ | ⟨t, p, changes, -⟩ | ⟨i, hi, -⟩ | ⟨i, c, hi, -⟩ | ⟨n, reply, hi, -⟩
      · cases moves
        exact absurd rfl (hne _)
      · cases changes
      · cases hi
      · cases hi
      · cases hi
    | past at_ =>
      rcases hsh with ⟨p, moves, rfl⟩ | ⟨t, p, changes, rfl⟩ | ⟨i, hi, -⟩ | ⟨i, c, hi, -, rfl⟩ | ⟨n, reply, hi, -, rfl⟩
      · exact .past (past_moves at_ moves hne)
      · exact .past (past_changes at_ changes)
      · rw [hi] at at_
        cases at_
      · cases c with
        | none => exact .past rfl
        | some c =>
          rw [hi] at at_
          cases at_
      · rw [hi] at at_
        exact .past at_

/-- Where the shell stands in its operation, after a run in which it does not give its answer. -/
theorem phase_of_run (ht : Tidy none s.table) (hd : Disciplined s) (hsrc : Sourced es s) (hl : s.shell = .locking id)
    (h : Run (OwnProcesses s.table) es s (new ++ es) s') (hone : ∀ reply, .answer reply ∉ new) :
    Phase (OwnProcesses s.table) es s id new s' := by
  obtain ⟨new', hnew, -, -, -, hphase⟩ := h.invariant (P := fun es' s' => ∃ new, es' = new ++ es ∧
    Run (OwnProcesses s.table) es s (new ++ es) s' ∧ Disciplined s' ∧ Sourced (new ++ es) s' ∧
    ((∀ reply, .answer reply ∉ new) → Phase (OwnProcesses s.table) es s id new s'))
    (fun {_ e s' s''} hp ho hs => by
      obtain ⟨new, rfl, hrun, hd, hsrc, hphase⟩ := hp
      refine ⟨e :: new, rfl, hrun.step ho hs, hd.step hs, sourced_step hsrc hs, fun hone => ?_⟩
      have hearlier := hphase fun reply hmem => hone reply (List.mem_cons_of_mem _ hmem)
      exact phase_step ht hrun hd hsrc hearlier ho hs fun reply he => hone reply (he ▸ List.mem_cons_self))
    ⟨[], rfl, .refl, hd, hsrc, fun _ => .locking hl rfl⟩
  obtain rfl := List.append_cancel_right hnew
  exact hphase hone

end FailedClaimsAux

open Act FailedClaimsAux FailedOperationsAux in
/-- Failed operations leave a session as it was, with any answers of the system, whose jobs were registered with groups of their own:
1. A job that is not there is not continued in the foreground, and nothing was done.
2. Where the signal to continue a job in the foreground fails, the table and the notices are the same, and the terminal was given to the
   group of the job and taken back.
3. Where a job cannot be continued in the background, nothing was done.
4. Where a job cannot be sent a signal, nothing was done.
5. In every order of the steps of the shell and the collector in which no process belongs to two jobs, the job that a signal could not
   continue in the foreground is put back as it was when it was claimed. When the shell is to continue the job, the collector may be
   anywhere in a pass begun at any time before, with the lock and what it has in hand as every run leaves them (`Disciplined.of_run`,
   `sourced_step`). -/
theorem failed_operations {σ : Type} (S : System σ) (x : Executor) (ops : List Operation) (s : Session σ) (hs : s.table = {})
    (hu : RegistersUntracked S x ops s) (id : JobId) (signal : Signal) :
    let s₁ := (perform S x ops s).2
    (∀ i, (bringToForeground S id s₁).1 = .error (.notFound i) → s₁.Unrecorded (bringToForeground S id s₁).2 []) ∧
    (∀ i cause, (bringToForeground S id s₁).1 = .error (.signal i cause) →
      ∃ j, s₁.table.find? id = some j ∧ s₁.Unrecorded (bringToForeground S id s₁).2 [.giveTo j.pgid, .reclaim]) ∧
    (∀ e, (sendToBackground S id s₁).1 = .error e → s₁.Unrecorded (sendToBackground S id s₁).2 []) ∧
    (∀ e, (killJob S id signal s₁).1 = .error e → s₁.Unrecorded (killJob S id signal s₁).2 []) ∧
    ∀ es (s₂ : State), s₂.table = s₁.table → s₂.shell = .locking id → Disciplined s₂ → Sourced es s₂ →
      ∀ new s' cause, Run (OwnProcesses s₁.table) es s₂ (new ++ es) s' → (∀ reply, .answer reply ∉ new) →
        s'.shell = .answering (.broughtToForeground (.error (.signal id cause))) →
        PutBack (OwnProcesses s₁.table) es s₂ id new s' := by
  intro s₁
  have h0 : JobTable.Tidy none s.table := hs ▸ .start
  have tidy : JobTable.Tidy none s₁.table := h0.turns (turns_of_registersUntracked S x ops s hu)
  refine ⟨fun i => unrecorded_of_notFound, fun i cause => unrecorded_of_signal tidy, fun e => unrecorded_of_background,
    fun e => unrecorded_of_kill, fun es s₂ htable hlocking disciplined sourced new s' cause hrun hone hat => ?_⟩
  rw [← htable] at tidy hrun ⊢
  cases phase_of_run tidy disciplined sourced hlocking hrun hone with
  | restored _ back => exact back
  | locking at_ | claiming at_ =>
    rw [hat] at at_
    cases at_
  | holding at_ =>
    rw [hat] at at_
    rcases at_ with at_ | at_ | ⟨_, at_⟩ <;> cases at_
  | past at_ =>
    rw [hat] at at_
    cases at_

/-- A system like the idle one, on which no signal to a group arrives. -/
def System.deaf : System Unit := { System.idle with signalGroup := fun _ _ _ => (.error .noProcess, ()) }

namespace FailedClaimsAux

/-- Two jobs in the background, the second of which is in this state. -/
def twoJobs (state : JobState) : JobTable :=
  ⟨2, [{ id := 1, pgid := 100, command := "sleep 9", background := true, live := 1, members := [100] },
    { id := 2, pgid := 200, command := "cat", state, background := true, live := 1, members := [200] }]⟩

/-- The first of two jobs is to be continued in the foreground while a pass is on that knows neither. -/
def refusing : State where
  table := twoJobs .running
  lock := some .collector
  shell := .locking 1
  collector := .visiting []

/-- The pass is left, the first job is claimed, the next pass finds that the second has stopped, and the first is put back. The last event
comes first. -/
def refusal : List Event :=
  [.restore 1, .signal 100 .cont (.error .noProcess), .record ⟨fun _ => some 200, .stopped 200 .tstp⟩,
    .poll 200 (.ok (.stopped 200 .tstp)), .survey, .enter, .unlock, .claim 1, .lock, .leave]

/-- What the two jobs come to. -/
def refused : State where
  table := twoJobs .stopped
  lock := some .collector
  shell := .answering (.broughtToForeground (.error (.signal 1 .noProcess)))
  collector := .informing (.stopped 2 "cat") [200]

/-- No process of the two jobs is one of both. -/
theorem run_refused : Run (OwnProcesses (twoJobs .running)) [.survey, .enter] refusing (refusal ++ [.survey, .enter]) refused := by
  have r₀ : Run (OwnProcesses (twoJobs .running)) [.survey, .enter] refusing [.survey, .enter] refusing := .refl
  have r₁ := r₀.step (by trivial) (.leave rfl)
  have r₂ := r₁.step (by trivial) (.lock rfl rfl)
  have r₃ := r₂.step (by trivial) (.change (.claim rfl))
  have r₄ := r₃.step (by trivial) (.unlock rfl)
  have r₅ := r₄.step (by trivial) (.enter rfl rfl)
  have r₆ := r₅.step (by trivial) (.survey rfl)
  have r₇ := r₆.step (by trivial) (.poll (show _ = CollectorPoint.visiting [200] from rfl) (.ok (.stopped 200 .tstp)))
  have own : OwnProcesses (twoJobs .running) (refusal.tail.tail.tail ++ [.survey, .enter])
      (.record ⟨fun _ => some 200, .stopped 200 .tstp⟩) := by
    rintro _ ⟨⟩ j hj ⟨_, ⟨⟩, hp⟩
    revert j
    decide
  have r₈ := r₇.step own (.record rfl rfl)
  have r₉ := r₈.step (by trivial) (.move (.notContinued 1 _ .noProcess))
  exact r₉.step (by trivial) (.change (.restore _ 1 _ .noProcess))

end FailedClaimsAux

open Act FailedClaimsAux in
/-- Of two jobs the first cannot be continued in the foreground, nor the second in the background, and a third does not exist. The
second job stops while the first is claimed, after a pass that was on before: that is recorded, and the first is put back as it
was. -/
theorem failed_operations_of_two_jobs :
    let s : Session Unit := { world := () }
    let ops : List Operation := [.addPipeline 100 "sleep 9" true [100], .addPipeline 200 "cat" true [200]]
    let s₁ := (perform .deaf {} ops s).2
    s.table = {} ∧ RegistersUntracked .deaf {} ops s ∧
    (bringToForeground .deaf 3 s₁).1 = .error (.notFound 3) ∧ s₁.Unrecorded (bringToForeground .deaf 3 s₁).2 [] ∧
    (bringToForeground .deaf 1 s₁).1 = .error (.signal 1 .noProcess) ∧
    (∃ j, s₁.table.find? 1 = some j ∧ s₁.Unrecorded (bringToForeground .deaf 1 s₁).2 [.giveTo j.pgid, .reclaim]) ∧
    (sendToBackground .deaf 1 s₁).1 = .error (.signal 1 .noProcess) ∧ s₁.Unrecorded (sendToBackground .deaf 1 s₁).2 [] ∧
    (killJob .deaf 1 .term s₁).1 = .error (.signal 1 .noProcess) ∧ s₁.Unrecorded (killJob .deaf 1 .term s₁).2 [] ∧
    refusing.table = s₁.table ∧ refusing.shell = .locking 1 ∧ Disciplined refusing ∧ Sourced [.survey, .enter] refusing ∧
    Run (OwnProcesses s₁.table) [.survey, .enter] refusing (refusal ++ [.survey, .enter]) refused ∧
    PutBack (OwnProcesses s₁.table) [.survey, .enter] refusing 1 refusal refused := by
  intro s ops s₁
  have untracked : RegistersUntracked .deaf {} ops s := by
    refine ⟨?_, ?_, trivial⟩
    · rintro _ ⟨⟩ _ hj
      cases hj
    · rintro _ ⟨⟩
      show ∀ j : Job, j ∈ ((Operation.addPipeline 100 "sleep 9" true [100]).act .deaf {} s).2.table.jobs → j.pgid ≠ 200
      decide
  obtain ⟨hmissing, -, -, -, -⟩ := failed_operations .deaf {} ops s rfl untracked 3 .term
  obtain ⟨-, hsignal, hbackground, hkill, hback⟩ := failed_operations .deaf {} ops s rfl untracked 1 .term
  have disciplined : Disciplined refusing := ⟨by decide, by decide⟩
  have sourced : Sourced [.survey, .enter] refusing := fun _ _ hw => by cases hw
  exact ⟨rfl, untracked, rfl, hmissing 3 rfl, rfl, hsignal 1 .noProcess rfl, rfl, hbackground _ rfl, rfl, hkill _ rfl, rfl, rfl,
    disciplined, sourced, run_refused,
    hback [.survey, .enter] refusing rfl rfl disciplined sourced refusal refused .noProcess run_refused (by simp [refusal]) rfl⟩

end JobShell
