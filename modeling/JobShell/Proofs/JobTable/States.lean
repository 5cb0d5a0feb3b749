import JobShell.Proofs.JobTable.Interference
import JobShell.Proofs.JobTable.LastStage

/-!
# The state that a job is shown in

A job has one state, and each member that stops or goes on gives it its own. So a job that is tracked is in the state that was
last reported of any of its members, and running if nothing was (`state_of_reports`); the end of a member leaves the state as it
is. It is the state that each member is in while they are all in the same one (`state_of_unanimous`). A pipeline with a stopped
member and a running one is shown as whichever was reported last.
-/

namespace JobShell

/-- The state of the process after the report, where it tells of one of these that stopped or went on. -/
def Report.moveAmong? (pids : List Pid) (q : Report) : Option JobState :=
  match q.status with
  | .stopped pid _ => if pid ∈ pids then some .stopped else none
  | .continued pid => if pid ∈ pids then some .running else none
  | _ => none

/-- The states that were reported of these processes, the first one first. -/
def movesAmong (pids : List Pid) (reports : List Report) : List JobState := reports.filterMap (Report.moveAmong? pids)

/-- The state that was reported last of these processes; they are running to begin with. -/
def stateAmong (pids : List Pid) (reports : List Report) : JobState := (movesAmong pids reports).getLast?.getD .running

namespace StatesAux

open JobTable AccountingAux Registration

variable {t : JobTable} {rs : List Registration} {gone : List Pid} {a : Registration} {q : Report} {i : Nat} {pid : Pid}
  {pids : List Pid} {j k : Job} {reports : List Report}

/-- A report gives no state where its process is none of these. -/
theorem moveAmong?_of_not_mem (h : ∀ pid, q.status.pid? = some pid → pid ∉ pids) : q.moveAmong? pids = none := by
  rw [Report.moveAmong?]
  split
  · rename_i pid _ hs
    exact if_neg (h pid (by rw [hs]; rfl))
  · rename_i pid hs
    exact if_neg (h pid (by rw [hs]; rfl))
  · rfl

/-- What a report about a job leaves of it is in the state that the report gives, if it gives one. -/
theorem state_of_after (hk : (j.after (.report q)).1 = some k) (hp : ∀ pid, q.status.pid? = some pid → pid ∈ pids) :
    k.state = (q.moveAmong? pids).getD j.state := by
  obtain ⟨groupOf, w⟩ := q
  have ended : ∀ {exit : ExitStatus},
      (if j.live ≤ 1 then (none, j.endNotice exit) else (some { j with live := j.live - 1 }, none)).1 = some k →
      k.state = j.state := fun {exit} hk => by
    split at hk
    · cases hk
    · cases hk
      rfl
  cases w with
  | stopped pid signal =>
    cases hk
    simp [Report.moveAmong?, hp pid rfl]
  | continued pid =>
    cases hk
    simp [Report.moveAmong?, hp pid rfl]
  | exited pid code => exact ended hk
  | signaled pid signal core => exact ended hk
  | traceEvent | traceCall | stillAlive =>
    cases hk
    rfl

/-- The states that are reported with one more report. -/
theorem movesAmong_cons (pids : List Pid) (q : Report) (rest : List Report) :
    movesAmong pids (q :: rest) = (q.moveAmong? pids).toList ++ movesAmong pids rest := by
  cases hx : q.moveAmong? pids <;> simp [movesAmong, hx]

/-- A job that is left by a report was in the table before it, in the state it has now unless the report gave it that. -/
theorem state_of_report (h : Accounts rs gone t) (hf : Family rs) (hq : q.Fits rs gone) (ha : rs[i]? = some a)
    (hk : (t.childStatus q.groupOf q.status).1.find? (i + 1) = some k) :
    ∃ j, t.find? (i + 1) = some j ∧ k.state = (q.moveAmong? a.members).getD j.state := by
  have hw := h.wellFormed
  -- The report is about another job, or none: then its process is no member, and the job is the one it was.
  have other : (∀ j, t.owner? q = some j → j.id ≠ i + 1) → (∀ pid, q.status.pid? = some pid → pid ∉ a.members) →
      ∃ j, t.find? (i + 1) = some j ∧ k.state = (q.moveAmong? a.members).getD j.state := fun hne hmem =>
    ⟨k, (find?_apply_of_ne hw (c := .report q) hne).symm.trans hk, by rw [moveAmong?_of_not_mem hmem, Option.getD_none]⟩
  cases hp : q.status.pid? with
  | none => exact other (fun j hj => by simp [owner?, hp] at hj) (by simp [hp])
  | some pid =>
    have howner : t.owner? q = t.ownerOf? pid ((q.groupOf pid).getD pid) := by rw [owner?, hp]; rfl
    rcases hq pid hp with ⟨b, hb, hleft⟩ | ⟨hmem, hgroup⟩
    · obtain ⟨m, hm⟩ := List.getElem?_of_mem hb
      obtain ⟨j, hj, hid, ho⟩ := owner_of_left h hf hm hleft ((q.groupOf pid).getD pid)
      by_cases hmi : m = i
      · subst hmi
        obtain rfl := Option.some.inj (ha.symm.trans hm)
        have hself := find?_apply_self hw (c := .report q) (howner.trans ho)
        rw [hid] at hself
        refine ⟨j, (find?_eq_some_iff hw).2 ⟨hj, hid⟩, state_of_after (hself.symm.trans hk) fun p hpp => ?_⟩
        obtain rfl := Option.some.inj (hp.symm.trans hpp)
        exact (mem_leftOf.1 hleft).1
      · refine other (fun l hl => ?_) fun p hpp hpa => hmi ?_
        · rw [← Option.some.inj ((howner.trans ho).symm.trans hl), hid]
          exact fun he => hmi (Nat.succ.inj he)
        · obtain rfl := Option.some.inj (hp.symm.trans hpp)
          exact place_unique hf hm ha (mem_leftOf.1 hleft).1 hpa
    · refine other (fun l hl => ?_) fun p hpp => ?_
      · rw [howner, owner_of_foreign h hmem hgroup] at hl
        cases hl
      · obtain rfl := Option.some.inj (hp.symm.trans hpp)
        exact hmem a (List.mem_of_getElem? ha)

/-- A job that is left by a run of reports is in the state that was reported last of its members, or in the one it was in. -/
theorem state_of_run (h : Accounts rs gone t) (hf : Family rs) (hr : Admissible rs gone reports) (ha : rs[i]? = some a)
    (hk : (t.account reports).1.find? (i + 1) = some k) :
    ∃ j, t.find? (i + 1) = some j ∧ k.state = (movesAmong a.members reports).getLast?.getD j.state := by
  induction reports generalizing t gone with
  | nil => exact ⟨k, hk, rfl⟩
  | cons q rest ih =>
    obtain ⟨l, hl, hlater⟩ := ih (h.report hf hr.1) hr.2 hk
    obtain ⟨j, hj, hfirst⟩ := state_of_report h hf hr.1 ha hl
    refine ⟨j, hj, ?_⟩
    rw [hlater, hfirst, movesAmong_cons, List.getLast?_append]
    cases (movesAmong a.members rest).getLast? <;> cases q.moveAmong? a.members <;> rfl

/-- A pipeline is registered as a running job. -/
theorem running_registerAll : ∀ j ∈ (registerAll {} rs).jobs, j.state = .running := by
  induction rs using List.reverseRecOn with
  | nil => exact fun j hj => absurd hj List.not_mem_nil
  | append_singleton rs r ih =>
    intro j hj
    rw [registerAll, List.foldl_append] at hj
    rcases mem_insert.1 hj with hj | rfl
    · exact ih j hj
    · rfl

/-- The state that was reported last, with one more report. -/
theorem stateAmong_concat (pids : List Pid) (reports : List Report) (q : Report) :
    stateAmong pids (reports ++ [q]) = (q.moveAmong? pids).getD (stateAmong pids reports) := by
  have hsplit : movesAmong pids (reports ++ [q]) = movesAmong pids reports ++ (q.moveAmong? pids).toList := by
    rw [movesAmong, List.filterMap_append]
    exact congrArg _ ((movesAmong_cons pids q []).trans (List.append_nil _))
  rw [stateAmong, hsplit, List.getLast?_append]
  cases q.moveAmong? pids <;> rfl

/-- A report gives a state to one of some processes. -/
theorem moveAmong?_eq_some_iff {σ : JobState} :
    q.moveAmong? pids = some σ ↔ ∃ pid ∈ pids, q.moveAmong? [pid] = some σ := by
  obtain ⟨groupOf, w⟩ := q
  cases w <;> simp [Report.moveAmong?]

/-- The state that was reported last of some processes was reported last of one of them. -/
theorem stateAmong_of_some_member (hne : pids ≠ []) (reports : List Report) :
    ∃ pid ∈ pids, stateAmong pids reports = stateAmong [pid] reports := by
  induction reports using List.reverseRecOn with
  | nil =>
    obtain ⟨pid, hp⟩ := List.exists_mem_of_ne_nil pids hne
    exact ⟨pid, hp, rfl⟩
  | append_singleton reports q ih =>
    cases hq : q.moveAmong? pids with
    | some σ =>
      obtain ⟨pid, hm, hp⟩ := moveAmong?_eq_some_iff.1 hq
      exact ⟨pid, hm, by rw [stateAmong_concat, stateAmong_concat, hq, hp, Option.getD_some, Option.getD_some]⟩
    | none =>
      obtain ⟨pid, hm, he⟩ := ih
      have hp : q.moveAmong? [pid] = none := Option.eq_none_iff_forall_ne_some.2 fun σ hσ => by
        rw [moveAmong?_eq_some_iff.2 ⟨pid, hm, hσ⟩] at hq
        cases hq
      exact ⟨pid, hm, by rw [stateAmong_concat, stateAmong_concat, hq, hp, Option.getD_none, Option.getD_none, he]⟩

end StatesAux

open JobTable StatesAux Registration

/-- The state of each job over a run of reports. Pipelines that can be told apart are registered in a fresh table, and then status
changes are reported, as in `accounting_of_reports`. A job that is still tracked is in the state that was last reported of any of
its members, ended or not, and running if none of them was ever reported to have stopped or gone on. -/
theorem state_of_reports (rs : List Registration) (hf : Family rs) (reports : List Report) (hr : Admissible rs [] reports) (i : Nat)
    (r : Registration) (hi : rs[i]? = some r) (j : Job) (hj : ((registerAll {} rs).account reports).1.find? (i + 1) = some j) :
    j.state = stateAmong r.members reports := by
  have hacc := (accounts_registerAll hf.nonempty).1
  obtain ⟨k, hk, hstate⟩ := state_of_run hacc hf hr hi hj
  rw [hstate, running_registerAll k ((find?_eq_some_iff hacc.wellFormed).1 hk).1]
  rfl

/-- A job that is still tracked, of whose members each was last reported in the same state or is in it from the start, is in that
state. -/
theorem state_of_unanimous (rs : List Registration) (hf : Family rs) (reports : List Report) (hr : Admissible rs [] reports)
    (i : Nat) (r : Registration) (hi : rs[i]? = some r) (j : Job)
    (hj : ((registerAll {} rs).account reports).1.find? (i + 1) = some j) {σ : JobState}
    (hσ : ∀ pid ∈ r.members, stateAmong [pid] reports = σ) : j.state = σ := by
  obtain ⟨pid, hm, he⟩ := stateAmong_of_some_member (hf.nonempty r (List.mem_of_getElem? hi)) reports
  rw [state_of_reports rs hf reports hr i r hi j hj, he]
  exact hσ pid hm

/-- One member of a pipeline stops and the other runs on: the job is shown as stopped. -/
example :
    let reports : List Report := [⟨fun _ => none, .stopped 101 .tstp⟩]
    (((registerAll {} twoPipelines).account reports).1.find? 1).map (·.state) = some .stopped ∧
      stateAmong [100] reports = .running := by
  decide

end JobShell
