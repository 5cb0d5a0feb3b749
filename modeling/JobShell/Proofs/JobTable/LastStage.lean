import JobShell.Proofs.JobTable.Accounting

/-!
# The status that a pipeline ends with

A pipeline has the status of its last stage. A foreground wait finds it in whatever order the processes end (`status_of_wait`,
`status_of_perm`). The job table remembers no status, and announces the end of a background job with the status of the member
that ended last (`ends_of_reports`). So the two agree when the last stage is the last to end (`end_of_last_stage`), and need not
agree otherwise.
-/

namespace JobShell

/-- How the process ended that is reported, if it is one of these. -/
def Report.exitAmong? (pids : List Pid) (q : Report) : Option ExitStatus :=
  q.ended?.bind fun pid => if pid ∈ pids then q.status.exit? else none

/-- How those of these processes ended that were reported, the first one first. -/
def exitsAmong (pids : List Pid) (reports : List Report) : List ExitStatus := reports.filterMap (Report.exitAmong? pids)

/-- How far a wait has come with more results. One that would end the wait is passed over. -/
def GroupWait.observeAll (g : GroupWait) (p : WaitProgress) (results : List WaitResult) : WaitProgress :=
  results.foldl (fun p result => match g.observe p result with
    | .proceed p => p
    | .settled _ => p) p

namespace LastStageAux

open JobTable AccountingAux Registration

variable {t : JobTable} {rs : List Registration} {gone : List Pid} {a : Registration} {q : Report} {i : Nat} {pid : Pid}
  {pids : List Pid} {exit : ExitStatus} {reports : List Report}

/-! ### What is reported of some processes -/

/-- The report of the end of one of the processes. -/
theorem exitAmong?_eq_some_iff :
    q.exitAmong? pids = some exit ↔ ∃ pid ∈ pids, q.ended? = some pid ∧ q.status.exit? = some exit := by
  rw [Report.exitAmong?, Option.bind_eq_some_iff]
  constructor
  · rintro ⟨pid, he, hx⟩
    split at hx
    · rename_i hp
      exact ⟨pid, hp, he, hx⟩
    · cases hx
  · rintro ⟨pid, hp, he, hx⟩
    exact ⟨pid, he, by rw [if_pos hp]; exact hx⟩

/-- The end of a process is reported with how it ended. -/
theorem exit_of_ended (h : q.ended? = some pid) : ∃ exit, q.status.exit? = some exit := by
  obtain ⟨exit, hx, -⟩ := Option.bind_eq_some_iff.1 h
  exact ⟨exit, hx⟩

/-- The notice of an end that is due with a status change tells of the owner, and of the change. -/
theorem notice_of_end {groupOf : Pid → Option Pid} {w : WaitStatus} {n : Notice} {id : JobId}
    (hn : (t.childStatus groupOf w).2 = some n) (he : n.isEndOf id = true) :
    ∃ j ∈ t.jobs, j.id = id ∧ ∃ exit, w.exit? = some exit ∧ n = .finished id j.command exit := by
  rcases childStatus_cases t groupOf w with ⟨pid, _, -, hc⟩ | ⟨pid, -, hc⟩ | ⟨pid, exit, -, hx, hc⟩ | ⟨-, hc⟩ <;> rw [hc] at hn
  · rw [isEndOf_childMoved id hn] at he
    cases he
  · rw [isEndOf_childMoved id hn] at he
    cases he
  · cases ho : t.ownerOf? pid ((groupOf pid).getD pid) with
    | none =>
      rw [childExited_of_none ho] at hn
      cases hn
    | some j =>
      rw [JobTable.childExited, ho] at hn
      dsimp only at hn
      split at hn
      · rw [JobTable.finish, Job.endNotice] at hn
        dsimp only at hn
        split at hn
        · cases hn
          obtain rfl := beq_iff_eq.1 he
          exact ⟨j, (ownerOf?_some ho).1, rfl, exit, hx, rfl⟩
        · cases hn
      · cases hn
  · cases hn

/-- The jobs in the table have the commands of their registrations. -/
def Named (rs : List Registration) (t : JobTable) : Prop := ∀ j ∈ t.jobs, ∃ a, rs[j.id - 1]? = some a ∧ j.command = a.command

/-- A status change leaves the commands. -/
theorem named_childStatus (h : Named rs t) (groupOf : Pid → Option Pid) (w : WaitStatus) :
    Named rs (t.childStatus groupOf w).1 := by
  intro k hk
  have hsub := map_childStatus_sublist (t := t) (fun j => (j.id, j.command)) (fun _ _ => rfl) (fun _ _ => rfl) groupOf w
  obtain ⟨j, hj, he⟩ := List.mem_map.1 (hsub.subset (List.mem_map_of_mem hk))
  obtain ⟨hid, hcommand⟩ := Prod.mk.inj he
  rw [← hid, ← hcommand]
  exact h j hj

/-- The jobs that are registered in a fresh table have their commands. -/
theorem named_registerAll (hne : ∀ r ∈ rs, r.members ≠ []) : Named rs (registerAll {} rs) := by
  induction rs using List.reverseRecOn with
  | nil => simp [Named, registerAll]
  | append_singleton rs r ih =>
    have hne' := fun a ha => hne a (List.mem_append_left _ ha)
    have hlast := (accounts_registerAll hne').2
    have he : registerAll {} (rs ++ [r]) =
        ((registerAll {} rs).insert r.pgid r.command r.background r.members.length r.members).1 := by
      simp [registerAll, addPipeline]
    rw [he]
    intro j hj
    rcases mem_insert.1 hj with hj | rfl
    · obtain ⟨a, ha, hc⟩ := ih hne' j hj
      exact ⟨a, (List.getElem?_append_left (List.getElem?_eq_some_iff.1 ha).1).trans ha, hc⟩
    · exact ⟨r, by simp [hlast], rfl⟩

/-- What is left after a report was left before it. -/
theorem left_append_subset (a : Registration) (gone more : List Pid) : a.left (gone ++ more) ⊆ a.left gone := fun p hp => by
  obtain ⟨hm, hn⟩ := mem_leftOf.1 hp
  exact mem_leftOf.2 ⟨hm, fun hg => hn (List.mem_append_left _ hg)⟩

/-- A report after which less is left is one of the end of a member. -/
theorem exitAmong?_of_left (h : a.left (gone ++ q.ended?.toList) ≠ a.left gone) :
    ∃ exit, q.exitAmong? a.members = some exit := by
  cases he : q.ended? with
  | none =>
    rw [he, Option.toList_none, List.append_nil] at h
    exact absurd rfl h
  | some pid =>
    rw [he, Option.toList_some] at h
    obtain ⟨exit, hx⟩ := exit_of_ended he
    exact ⟨exit, exitAmong?_eq_some_iff.2 ⟨pid, by_contra fun hp => h (left_of_not_mem hp), he, hx⟩⟩

/-- Where members are left before a report and none after it, it is one of the end of a member, and its notice is due if the job
is in the background. -/
theorem ends_of_report (h : Accounts rs gone t) (hc : Named rs t) (hf : Family rs) (hq : q.Fits rs gone) (hi : rs[i]? = some a) :
    (t.childStatus q.groupOf q.status).2.toList.filter (Notice.isEndOf (i + 1)) =
      if a.background = true ∧ a.left gone ≠ [] ∧ a.left (gone ++ q.ended?.toList) = [] then
        (q.exitAmong? a.members).toList.map (.finished (i + 1) a.command) else [] := by
  have hcount := h.endings_report hf hq hi
  rw [List.countP_eq_length_filter] at hcount
  have hsub := left_append_subset a gone q.ended?.toList
  split
  · rename_i hcond
    obtain ⟨hb, hleft, hnone⟩ := hcond
    have hless : a.left (gone ++ q.ended?.toList) ≠ a.left gone := by
      rw [hnone]
      exact hleft.symm
    obtain ⟨exit, hx⟩ := exitAmong?_of_left hless
    have hone : ((t.childStatus q.groupOf q.status).2.toList.filter (Notice.isEndOf (i + 1))).length = 1 := by
      simpa [Registration.endings, hb, hleft, hnone] using hcount
    obtain ⟨n, hn⟩ := List.length_eq_one_iff.1 hone
    obtain ⟨hmem, hend⟩ := List.mem_filter.1 (hn ▸ List.mem_singleton_self n)
    obtain ⟨j, hj, hid, exit', hx', rfl⟩ := notice_of_end (Option.mem_toList.1 hmem) hend
    obtain ⟨b, hb, hcommand⟩ := hc j hj
    rw [hid, Nat.add_sub_cancel, hi] at hb
    obtain rfl := Option.some.inj hb
    obtain ⟨_, -, -, hx''⟩ := exitAmong?_eq_some_iff.1 hx
    rw [hn, hx, hcommand, Option.some.inj (hx'.symm.trans hx'')]
    rfl
  · rename_i hcond
    have hzero : ((t.childStatus q.groupOf q.status).2.toList.filter (Notice.isEndOf (i + 1))).length = 0 := by
      have hsame : a.endings (gone ++ q.ended?.toList) = a.endings gone := by
        rw [Registration.endings, Registration.endings]
        by_cases hb : a.background = true
        · by_cases hleft : a.left gone = []
          · rw [if_pos ⟨hb, List.eq_nil_of_subset_nil (hleft ▸ hsub)⟩, if_pos ⟨hb, hleft⟩]
          · rw [if_neg fun hn => hcond ⟨hb, hleft, hn.2⟩, if_neg fun hn => hleft hn.2]
        · rw [if_neg fun hn => hb hn.1, if_neg fun hn => hb hn.1]
      omega
    exact List.length_eq_zero_iff.1 hzero

/-- What is reported of some processes, with one more report. -/
theorem exitsAmong_cons (pids : List Pid) (q : Report) (rest : List Report) :
    exitsAmong pids (q :: rest) = (q.exitAmong? pids).toList ++ exitsAmong pids rest := by
  cases hx : q.exitAmong? pids <;> simp [exitsAmong, hx]

/-- Of fewer processes no more is reported. -/
theorem exitsAmong_nil_of_subset {pids' : List Pid} (hs : pids ⊆ pids') (h : exitsAmong pids' reports = []) :
    exitsAmong pids reports = [] := by
  refine List.filterMap_eq_nil_iff.2 fun q hq => ?_
  by_contra hne
  obtain ⟨exit, hx⟩ := Option.ne_none_iff_exists'.1 hne
  obtain ⟨pid, hp, hrest⟩ := exitAmong?_eq_some_iff.1 hx
  have hnone := List.filterMap_eq_nil_iff.1 h q hq
  rw [exitAmong?_eq_some_iff.2 ⟨pid, hs hp, hrest⟩] at hnone
  cases hnone

/-- The processes that have ended after one more report. -/
theorem endedIn_cons (gone : List Pid) (q : Report) (rest : List Report) :
    gone ++ endedIn (q :: rest) = gone ++ q.ended?.toList ++ endedIn rest := by
  cases hx : q.ended? <;> simp [endedIn, hx]

/-- When all members have ended, no end of a member is reported any more. -/
theorem exitsAmong_of_none_left (hr : Admissible rs gone reports) (ha : a ∈ rs) (hleft : a.left gone = []) :
    exitsAmong a.members reports = [] := by
  induction reports generalizing gone with
  | nil => rfl
  | cons q rest ih =>
    have hrest : a.left (gone ++ q.ended?.toList) = [] := List.eq_nil_of_subset_nil (hleft ▸ left_append_subset a gone _)
    rw [exitsAmong_cons, ih hr.2 hrest, List.append_nil, Option.toList_eq_nil_iff]
    by_contra hx
    obtain ⟨exit, hx⟩ := Option.ne_none_iff_exists'.1 hx
    obtain ⟨pid, hp, he, -⟩ := exitAmong?_eq_some_iff.1 hx
    obtain ⟨_, -, hpid⟩ := Option.bind_eq_some_iff.1 he
    rcases hr.1 pid hpid with ⟨b, -, hb⟩ | ⟨hnone, -⟩
    · have : pid ∈ a.left gone := mem_leftOf.2 ⟨hp, (mem_leftOf.1 hb).2⟩
      rw [hleft] at this
      cases this
    · exact hnone a ha hp

/-- Where members are left before some reports and none after them, the end of a member is reported. -/
theorem exitsAmong_ne_nil (hleft : a.left gone ≠ []) (hnone : a.left (gone ++ endedIn reports) = []) :
    exitsAmong a.members reports ≠ [] := by
  obtain ⟨pid, hp⟩ := List.exists_mem_of_ne_nil _ hleft
  obtain ⟨hm, hn⟩ := mem_leftOf.1 hp
  have hended : pid ∈ endedIn reports := by
    by_contra hnot
    have : pid ∈ a.left (gone ++ endedIn reports) := mem_leftOf.2 ⟨hm, fun hg => (List.mem_append.1 hg).elim hn hnot⟩
    rw [hnone] at this
    cases this
  obtain ⟨q, hq, he⟩ := List.mem_filterMap.1 hended
  obtain ⟨exit, hx⟩ := exit_of_ended he
  exact List.ne_nil_of_mem (List.mem_filterMap.2 ⟨q, hq, exitAmong?_eq_some_iff.2 ⟨pid, hm, he, hx⟩⟩)

/-- The notices of the end of a job over a run: one if it is in the background and its last member ends, with the status of
that. -/
theorem ends_of_run (h : Accounts rs gone t) (hc : Named rs t) (hf : Family rs) (hr : Admissible rs gone reports)
    (hi : rs[i]? = some a) (hleft : a.left gone ≠ []) :
    (t.account reports).2.filter (Notice.isEndOf (i + 1)) =
      if a.background = true ∧ a.left (gone ++ endedIn reports) = [] then
        [.finished (i + 1) a.command ((exitsAmong a.members reports).getLast?.getD .unknown)] else [] := by
  induction reports generalizing t gone with
  | nil => simp [account_nil, endedIn, hleft]
  | cons q rest ih =>
    have hacc := h.report hf hr.1
    have hrest := left_append_subset a (gone ++ q.ended?.toList) (endedIn rest)
    simp only [account_cons, List.filter_append, ends_of_report h hc hf hr.1 hi, endedIn_cons, exitsAmong_cons]
    by_cases hl : a.left (gone ++ q.ended?.toList) = []
    · -- This report is the one of the last member, and nothing comes of the others.
      have hnone : a.left (gone ++ q.ended?.toList ++ endedIn rest) = [] := List.eq_nil_of_subset_nil (hl ▸ hrest)
      have hquiet : ((t.childStatus q.groupOf q.status).1.account rest).2.filter (Notice.isEndOf (i + 1)) = [] := by
        have hcount := (hacc.account hf hr.2).2 i a hi
        rw [Registration.endings, Registration.endings, hl, hnone, List.countP_eq_length_filter] at hcount
        exact List.length_eq_zero_iff.1 (by omega)
      have hless : a.left (gone ++ q.ended?.toList) ≠ a.left gone := by
        rw [hl]
        exact hleft.symm
      obtain ⟨exit, hx⟩ := exitAmong?_of_left hless
      rw [hquiet, exitsAmong_of_none_left hr.2 (List.mem_of_getElem? hi) hl, hx, hl, hnone]
      simp [hleft]
    · rw [if_neg fun hn => hl hn.2.2, List.nil_append, ih hacc (named_childStatus hc _ _) hr.2 hl]
      split
      · rename_i hcond
        -- Of the last member it is told later.
        rw [List.getLast?_append_of_ne_nil _ (exitsAmong_ne_nil hl hcond.2)]
      · rfl

/-- One more result leaves a wait with the status of its stage, if it is one of the end of that. -/
theorem status_of_observe {g : GroupWait} {last : Pid} (hg : g.statusPid = some last) (p : WaitProgress) (q : Report) :
    (g.observeAll p [.ok q.status]).status = (q.exitAmong? [last]).getD p.status := by
  obtain ⟨groupOf, w⟩ := q
  cases w <;> simp [GroupWait.observeAll, GroupWait.observe, GroupWait.collect, hg, Report.exitAmong?, Report.ended?,
    WaitStatus.ended?, WaitStatus.exit?, WaitStatus.pid?] <;> split <;> rfl

end LastStageAux

open LastStageAux Registration JobTable

variable {g : GroupWait} {last : Pid} {reports reports' : List Report}

/-- A foreground wait ends with the status of its stage that it was told of last, whatever it was told of the others. -/
theorem status_of_wait (hg : g.statusPid = some last) (p : WaitProgress) (reports : List Report) :
    (g.observeAll p (reports.map fun q => .ok q.status)).status = (exitsAmong [last] reports).getLast?.getD p.status := by
  induction reports generalizing p with
  | nil => rfl
  | cons q rest ih =>
    refine (ih (g.observeAll p [.ok q.status])).trans ?_
    rw [status_of_observe hg, exitsAmong_cons]
    cases hrest : (exitsAmong [last] rest).getLast? with
    | none =>
      rw [List.getLast?_eq_none_iff.1 hrest, List.append_nil]
      cases q.exitAmong? [last] <;> rfl
    | some exit =>
      rw [List.getLast?_append, hrest]
      rfl

/-- A foreground wait comes to the same status in whatever order the processes end. -/
theorem status_of_perm (hg : g.statusPid = some last) (hp : reports.Perm reports')
    (honce : (exitsAmong [last] reports).length ≤ 1) :
    (g.observeAll {} (reports.map fun q => .ok q.status)).status =
      (g.observeAll {} (reports'.map fun q => .ok q.status)).status := by
  have hperm : (exitsAmong [last] reports).Perm (exitsAmong [last] reports') := hp.filterMap _
  rw [status_of_wait hg, status_of_wait hg]
  cases hx : exitsAmong [last] reports with
  | nil =>
    rw [hx] at hperm
    rw [List.nil_perm.1 hperm]
  | cons exit rest =>
    rw [hx, List.length_cons] at honce
    obtain rfl : rest = [] := List.length_eq_zero_iff.1 (by omega)
    rw [hx] at hperm
    rw [List.singleton_perm.1 hperm]

/-- The notices of the end of each job over a run of reports: a background job whose members have all ended is announced once,
with the status of the member that ended last. -/
theorem ends_of_reports (rs : List Registration) (hf : Family rs) (reports : List Report) (hr : Admissible rs [] reports) (i : Nat)
    (r : Registration) (hi : rs[i]? = some r) :
    ((registerAll {} rs).account reports).2.filter (Notice.isEndOf (i + 1)) =
      if r.background = true ∧ r.left (endedIn reports) = [] then
        [.finished (i + 1) r.command ((exitsAmong r.members reports).getLast?.getD .unknown)] else [] := by
  have hleft : r.left [] ≠ [] := by
    rw [AccountingAux.left_nil]
    exact hf.nonempty r (List.mem_of_getElem? hi)
  exact ends_of_run (accounts_registerAll hf.nonempty).1 (named_registerAll hf.nonempty) hf hr hi hleft

/-- Where the last stage is the last member to end, the end of a background job is announced with the status that a foreground
wait for it comes to. -/
theorem end_of_last_stage (rs : List Registration) (hf : Family rs) (early : List Report) (q : Report) (late : List Report)
    (hr : Admissible rs [] (early ++ q :: late)) (i : Nat) (r : Registration) (hi : rs[i]? = some r) (hb : r.background = true)
    (hleft : r.left (endedIn (early ++ q :: late)) = []) (hg : g.statusPid = some last) (hm : last ∈ r.members)
    (hq : q.ended? = some last) (hlate : exitsAmong r.members late = []) :
    ((registerAll {} rs).account (early ++ q :: late)).2.filter (Notice.isEndOf (i + 1)) =
      [.finished (i + 1) r.command (g.observeAll {} ((early ++ q :: late).map fun q => .ok q.status)).status] := by
  obtain ⟨exit, hx⟩ := exit_of_ended hq
  have ends : ∀ {pids}, last ∈ pids → exitsAmong pids late = [] → (exitsAmong pids (early ++ q :: late)).getLast? = some exit := by
    intro pids hmem hnone
    have hone : exitsAmong pids (q :: late) = [exit] := by
      rw [exitsAmong_cons, hnone, exitAmong?_eq_some_iff.2 ⟨last, hmem, hq, hx⟩]
      rfl
    have hsplit : exitsAmong pids (early ++ q :: late) = exitsAmong pids early ++ [exit] := by
      rw [← hone]
      exact List.filterMap_append
    rw [hsplit, List.getLast?_concat]
  have hstage := exitsAmong_nil_of_subset (List.cons_subset.2 ⟨hm, List.nil_subset _⟩) hlate
  rw [ends_of_reports rs hf _ hr i r hi, if_pos ⟨hb, hleft⟩, status_of_wait hg, ends hm hlate,
    ends (List.mem_singleton_self _) hstage]

/-- The first stage is killed after the last one has ended: the end of the job is not announced with the status that a
foreground wait comes to. -/
example :
    let reports : List Report := [⟨fun _ => none, .exited 101 0⟩, ⟨fun _ => none, .signaled 100 .term false⟩]
    ((registerAll {} [⟨100, "sleep 9 | true", true, [100, 101]⟩]).account reports).2 =
        [.finished 1 "sleep 9 | true" (.signaled 15)] ∧
      (GroupWait.observeAll ⟨100, 2, some 101⟩ {} (reports.map fun q => .ok q.status)).status = .exited 0 := by
  decide

end JobShell
