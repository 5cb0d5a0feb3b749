import JobShell.Proofs.JobTable.Marks

/-!
# Changes of different jobs

A change of the collector concerns at most one job (`concerned?`): the owner of the process that is reported of, or the job of the
group that is concluded. What becomes of that job depends on nothing but the job and the change (`Job.after`), and no other job
is touched (`apply_of_some`, `find?_apply_of_ne`).

A lookup goes through all jobs, the one of an owner even twice, and takes the first that fits. It is not disturbed all the same by
a change of another job (`concerned?_apply`): a job that was not found before it has neither more members nor another group after
it, and the one that was found is still there. So changes of different jobs can be made in either order (`apply_comm`), and
`reports_commute` says so of reports.
-/

namespace JobShell

/-- What is left of a job after a change that concerns it, and the notice that is due. -/
def Job.after (j : Job) : JobTable.Change → Option Job × Option Notice
  | .conclusion _ => (none, j.endNotice .unknown)
  | .report r =>
    match r.status with
    | .stopped _ _ => (some { j with state := .stopped }, if j.state ≠ .stopped then some (.stopped j.id j.command) else none)
    | .continued _ => (some { j with state := .running }, none)
    | w =>
      match w.exit? with
      | some exit => if j.live ≤ 1 then (none, j.endNotice exit) else (some { j with live := j.live - 1 }, none)
      | none => (some j, none)

/-- The process that is reported of belongs to the job: it is a member, or its group is said to be the one of the job. -/
def Report.BelongsTo (r : Report) (j : Job) : Prop :=
  ∃ pid, r.status.pid? = some pid ∧ (pid ∈ j.members ∨ (r.groupOf pid).getD pid = j.pgid)

namespace JobTable

/-- The job that a report is about: the owner of its process. -/
def owner? (t : JobTable) (r : Report) : Option Job := r.status.pid?.bind fun pid => t.ownerOf? pid ((r.groupOf pid).getD pid)

/-- The job that a change of the collector is about. -/
def concerned? (t : JobTable) : Change → Option Job
  | .report r => t.owner? r
  | .conclusion pgid => t.ofGroup? pgid

/-- The table with this in the place of the job of a number. -/
def put (t : JobTable) (id : JobId) (left : Option Job) : JobTable :=
  { t with jobs := t.jobs.filterMap fun j => if j.id == id then left else some j }

/-- The change tells of the job: the process that is reported of belongs to it, or the group that is concluded is its own. -/
def Change.TellsOf (c : Change) (j : Job) : Prop :=
  match c with
  | .report r => r.BelongsTo j
  | .conclusion pgid => j.pgid = pgid

variable {t : JobTable} {c d : Change} {j k : Job} {id : JobId} {left : Option Job}

/-! ## One change -/

/-- The job that a change is about is in the table. -/
theorem mem_of_concerned? (h : t.concerned? c = some j) : j ∈ t.jobs := by
  cases c with
  | conclusion pgid => exact (ofGroup?_some h).1
  | report r =>
    obtain ⟨pid, -, ho⟩ := Option.bind_eq_some_iff.1 h
    exact (ownerOf?_some ho).1

/-- A change tells of the job that it is about. -/
theorem tellsOf_of_concerned? (h : t.concerned? c = some j) : c.TellsOf j := by
  cases c with
  | conclusion pgid => exact (ofGroup?_some h).2
  | report r =>
    obtain ⟨pid, hp, ho⟩ := Option.bind_eq_some_iff.1 h
    exact ⟨pid, hp, (ownerOf?_some ho).2.imp_right Eq.symm⟩

/-- A change of a job puts the changed job in its place. -/
theorem modify_eq_put (h : t.WellFormed) (hj : j ∈ t.jobs) (change : Job → Job) :
    t.modify j.id change = t.put j.id (some (change j)) := by
  refine eq_of_jobs rfl ?_
  rw [modify, put, ← List.filterMap_eq_map]
  refine List.filterMap_congr fun i hi => ?_
  by_cases he : i.id = j.id
  · simp [h.eq_of_id hi hj he]
  · simp [he]

/-- The end of a job leaves nothing in its place. -/
theorem finish_eq_put (h : t.WellFormed) (status : ExitStatus) : (t.finish j status).1 = t.put j.id none := by
  refine eq_of_jobs rfl ?_
  rw [finish_jobs, put, ← List.filterMap_eq_filter]
  refine List.filterMap_congr fun i hi => ?_
  by_cases he : i.id = j.id <;> simp [he, h.tracked i hi, Option.guard]

/-- A process that stops or goes on puts its owner, in the new state, in the place of the owner. -/
theorem childMoved_eq_put (h : t.WellFormed) {pid group : Pid} (state : JobState) (ho : t.ownerOf? pid group = some j) :
    t.childMoved pid group state =
      (t.put j.id (some { j with state }), if j.state ≠ state ∧ state = .stopped then some (.stopped j.id j.command) else none) := by
  rw [childMoved_of_owner ho, modify_eq_put h (ownerOf?_some ho).1]

/-- The end of a process puts its owner, with one live process less, in the place of the owner, or nothing after the last one. -/
theorem childExited_eq_put (h : t.WellFormed) {pid group : Pid} (status : ExitStatus) (ho : t.ownerOf? pid group = some j) :
    t.childExited pid group status =
      (t.put j.id (if j.live ≤ 1 then none else some { j with live := j.live - 1 }),
        if j.live ≤ 1 then j.endNotice status else none) := by
  by_cases hl : j.live ≤ 1
  · rw [childExited_of_last ho hl, if_pos hl, if_pos hl, ← finish_eq_put h status]
    rfl
  · rw [childExited_of_more h ho (Nat.lt_of_not_le hl), if_neg hl, if_neg hl, modify_eq_put h (ownerOf?_some ho).1]

/-- A change that is about no job changes nothing. -/
theorem apply_of_none (h : t.WellFormed) (hc : t.concerned? c = none) : t.apply c = (t, none) := by
  cases c with
  | conclusion pgid => exact markFinished_of_none h hc
  | report r =>
    have ho : ∀ pid, r.status.pid? = some pid → t.ownerOf? pid ((r.groupOf pid).getD pid) = none := fun pid hp => by
      simpa [concerned?, owner?, hp] using hc
    rcases childStatus_cases t r.groupOf r.status with ⟨pid, _, hw, he⟩ | ⟨pid, hw, he⟩ | ⟨pid, exit, hp, -, he⟩ | ⟨-, he⟩
    · exact he.trans (childMoved_of_none (ho pid (by rw [hw]; rfl)))
    · exact he.trans (childMoved_of_none (ho pid (by rw [hw]; rfl)))
    · exact he.trans (childExited_of_none (ho pid hp))
    · exact he

/-- A change of a job puts what is left of it in its place. -/
theorem apply_of_some (h : t.WellFormed) (hc : t.concerned? c = some j) :
    t.apply c = (t.put j.id (j.after c).1, (j.after c).2) := by
  cases c with
  | conclusion pgid =>
    show t.markFinished pgid .unknown = _
    rw [markFinished_of_some hc]
    exact Prod.ext (finish_eq_put h .unknown) rfl
  | report r =>
    obtain ⟨groupOf, w⟩ := r
    have ho : ∀ pid, w.pid? = some pid → t.ownerOf? pid ((groupOf pid).getD pid) = some j := fun pid hp => by
      simpa [concerned?, owner?, hp] using hc
    cases w with
    | stopped pid signal => exact (childMoved_eq_put h .stopped (ho pid rfl)).trans (by simp [Job.after])
    | continued pid => exact (childMoved_eq_put h .running (ho pid rfl)).trans (by simp [Job.after])
    | exited pid code =>
      refine (childExited_eq_put h (.exited code) (ho pid rfl)).trans ?_
      by_cases hl : j.live ≤ 1 <;> simp [Job.after, WaitStatus.exit?, hl]
    | signaled pid signal core =>
      refine (childExited_eq_put h (.signaled signal.number) (ho pid rfl)).trans ?_
      by_cases hl : j.live ≤ 1 <;> simp [Job.after, WaitStatus.exit?, hl]
    | traceEvent pid | traceCall pid =>
      have hj := mem_of_concerned? hc
      refine Prod.ext ?_ rfl
      exact (show t = t.modify j.id id by simp [modify]).trans (modify_eq_put h hj id)
    | stillAlive => cases hc

/-- What is left of a job is the job in some state, with some count, and not one that has ended. -/
theorem after_eq_some (hk : (j.after c).1 = some k) :
    k = { j with state := k.state, live := k.live } ∧ (j.isTracked = true → k.isTracked = true) := by
  cases c with
  | conclusion pgid => cases hk
  | report r =>
    simp only [Job.after] at hk
    split at hk
    · cases hk
      exact ⟨rfl, fun _ => rfl⟩
    · cases hk
      exact ⟨rfl, fun _ => rfl⟩
    · split at hk
      · split at hk
        · cases hk
        · cases hk
          exact ⟨rfl, fun ht => ht⟩
      · cases hk
        exact ⟨rfl, fun ht => ht⟩

/-- What is left of a job has its number. -/
theorem id_of_after (hk : (j.after c).1 = some k) : k.id = j.id := by
  rw [(after_eq_some hk).1]

/-! ## What the other jobs see of it -/

/-- A lookup that did not find a job is not disturbed by what is put in its place, where that fits no better. -/
theorem lookup_put {q : Job → Bool} (h : t.WellFormed) (hj : j ∈ t.jobs) (hf : t.jobs.find? q ≠ some j)
    (hleft : ∀ k, left = some k → q k = true → q j = true) : (t.put j.id left).jobs.find? q = t.jobs.find? q := by
  have hsame : ∀ i ∈ t.jobs, i ≠ j → (if i.id == j.id then left else some i) = some i := fun i hi hne => by
    rw [if_neg fun he => hne (h.eq_of_id hi hj (beq_iff_eq.1 he))]
  have hless : ∀ i ∈ t.jobs, (if i.id == j.id then left else some i).any q = true → q i = true := by
    intro i hi hany
    by_cases hij : i = j
    · subst hij
      rw [beq_self_eq_true, if_pos rfl] at hany
      obtain ⟨k, hk, hq⟩ := (Option.any_eq_true ..).1 hany
      exact hleft k hk hq
    · rw [hsame i hi hij] at hany
      exact hany
  rw [put, List.find?_filterMap]
  cases hr : t.jobs.find? q with
  | none =>
    have hnone : t.jobs.find? (fun i => (if i.id == j.id then left else some i).any q) = none :=
      List.find?_eq_none.2 fun i hi hany => List.find?_eq_none.1 hr i hi (hless i hi hany)
    rw [hnone]
    rfl
  | some k =>
    have hk := List.mem_of_find?_eq_some hr
    have hkj : k ≠ j := fun he => hf (hr.trans (congrArg some he))
    obtain ⟨hq, before, rest, hjobs, hbefore⟩ := List.find?_eq_some_iff_append.1 hr
    have hsome : t.jobs.find? (fun i => (if i.id == j.id then left else some i).any q) = some k := by
      refine List.find?_eq_some_iff_append.2 ⟨by rw [hsame k hk hkj]; exact hq, before, rest, hjobs, fun i hi => ?_⟩
      have hi' : i ∈ t.jobs := by rw [hjobs]; exact List.mem_append_left _ hi
      have hnot := hbefore i hi
      rw [Bool.not_eq_true'] at hnot ⊢
      exact Bool.eq_false_iff.2 fun hany => Bool.eq_false_iff.1 hnot (hless i hi' hany)
    rw [hsome]
    exact hsame k hk hkj

/-- A change of one job leaves the jobs of the other numbers as they are. -/
theorem find?_apply_of_ne (h : t.WellFormed) (hc : ∀ j, t.concerned? c = some j → j.id ≠ id) :
    (t.apply c).1.find? id = t.find? id := by
  cases hj : t.concerned? c with
  | none => rw [apply_of_none h hj]
  | some j =>
    have hmem := mem_of_concerned? hj
    rw [apply_of_some h hj]
    refine lookup_put h hmem (fun hf => hc j hj ((find?_eq_some_iff h).1 hf).2) fun k hk hq => ?_
    rw [(after_eq_some hk).1] at hq
    exact hq

/-- A job that a change is not about is as it was. -/
theorem find?_apply_of_other (h : t.WellFormed) (hj : t.find? id = some j) (hc : t.concerned? c ≠ some j) :
    (t.apply c).1.find? id = some j := by
  obtain ⟨hmem, rfl⟩ := (find?_eq_some_iff h).1 hj
  refine (find?_apply_of_ne h fun k hk he => hc ?_).trans hj
  rw [hk, h.eq_of_id (mem_of_concerned? hk) hmem he]

/-- A change of a job leaves at its number what is left of it. -/
theorem find?_apply_self (h : t.WellFormed) (hc : t.concerned? c = some j) : (t.apply c).1.find? j.id = (j.after c).1 := by
  have hj := mem_of_concerned? hc
  refine Option.ext fun k => ?_
  rw [find?_eq_some_iff (h.apply c), apply_of_some h hc]
  simp only [put, List.mem_filterMap]
  constructor
  · rintro ⟨⟨i, -, hput⟩, hid⟩
    by_cases hi : i.id = j.id
    · rwa [if_pos (beq_iff_eq.2 hi)] at hput
    · rw [if_neg (by simpa using hi)] at hput
      exact absurd ((congrArg Job.id (Option.some.inj hput)).trans hid) hi
  · exact fun hk => ⟨⟨j, hj, by rw [if_pos (beq_self_eq_true _)]; exact hk⟩, id_of_after hk⟩

/-- What is put in the place of one job, with its group and its members, does not disturb the lookup of another. -/
theorem concerned?_put (h : t.WellFormed) (hj : j ∈ t.jobs) (hd : t.concerned? d ≠ some j)
    (hleft : ∀ k, left = some k → k.pgid = j.pgid ∧ k.members = j.members) : (t.put j.id left).concerned? d = t.concerned? d := by
  -- A lookup looks at the group and the members only, so what is put fits none that the job did not.
  have hfit : ∀ {q : Job → Bool}, (∀ k, k.pgid = j.pgid → k.members = j.members → q k = true → q j = true) →
      t.jobs.find? q ≠ some j → (t.put j.id left).jobs.find? q = t.jobs.find? q := fun hq hf =>
    lookup_put h hj hf fun k hk => hq k (hleft k hk).1 (hleft k hk).2
  have htracked := h.tracked j hj
  cases d with
  | conclusion pgid => exact hfit (fun _ _ _ hq => by simp_all) hd
  | report r =>
    simp only [concerned?, owner?] at hd ⊢
    cases hp : r.status.pid? with
    | none => rfl
    | some pid =>
      simp only [hp, Option.bind_some, ownerOf?] at hd ⊢
      -- By member: the job found there is the owner, so it is not the one that was replaced.
      have hmember := hfit (q := fun i => i.isTracked && i.members.contains pid) (fun _ _ _ hq => by simp_all)
        fun hf => hd (by rw [hf, Option.some_or])
      rw [hmember]
      cases hm : t.jobs.find? fun i => i.isTracked && i.members.contains pid with
      | some k => rw [Option.some_or, Option.some_or]
      | none =>
        rw [hm, Option.none_or] at hd
        exact hfit (fun _ _ _ hq => by simp_all) hd

/-- A change of one job does not disturb the lookup of another. -/
theorem concerned?_apply (h : t.WellFormed) (hc : t.concerned? c = some j) (hd : t.concerned? d ≠ some j) :
    (t.apply c).1.concerned? d = t.concerned? d := by
  rw [apply_of_some h hc]
  exact concerned?_put h (mem_of_concerned? hc) hd fun k hk => by
    rw [(after_eq_some hk).1]
    exact ⟨rfl, rfl⟩

/-! ## Two changes -/

/-- What is put in the places of two jobs may be put there in either order. -/
theorem put_comm {i k : JobId} {x y : Option Job} (hik : i ≠ k) (hx : ∀ j, x = some j → j.id = i)
    (hy : ∀ j, y = some j → j.id = k) : (t.put i x).put k y = (t.put k y).put i x := by
  refine eq_of_jobs rfl ?_
  simp only [put, List.filterMap_filterMap]
  refine List.filterMap_congr fun j _ => ?_
  by_cases hi : j.id = i
  · have hk : j.id ≠ k := fun he => hik (hi.symm.trans he)
    cases x with
    | none => simp [hi, hik]
    | some a => simp [hi, hik, hx a rfl]
  · by_cases hk : j.id = k
    · cases y with
      | none => simp [hk, hik.symm]
      | some b => simp [hk, hik.symm, hy b rfl]
    · simp [hi, hk]

/-- Changes that are about different jobs leave the same table in either order, and with each the notice is due that is due
without the other. -/
theorem apply_comm (h : t.WellFormed) (hne : ∀ j, t.concerned? c = some j → t.concerned? d ≠ some j) :
    ((t.apply c).1.apply d).1 = ((t.apply d).1.apply c).1 ∧
      ((t.apply c).1.apply d).2 = (t.apply d).2 ∧ ((t.apply d).1.apply c).2 = (t.apply c).2 := by
  cases hc : t.concerned? c with
  | none =>
    have hpass := apply_of_none h hc
    cases hd : t.concerned? d with
    | none => rw [hpass, apply_of_none h hd, hpass]; exact ⟨rfl, rfl, rfl⟩
    | some k =>
      have hc' := (concerned?_apply h hd (d := c) (by rw [hc]; nofun)).trans hc
      rw [hpass, apply_of_none (h.apply d) hc']
      exact ⟨rfl, rfl, rfl⟩
  | some j =>
    have hd' := concerned?_apply h hc (hne j hc)
    cases hd : t.concerned? d with
    | none =>
      rw [apply_of_none h hd, apply_of_none (h.apply c) (hd'.trans hd)]
      exact ⟨rfl, rfl, rfl⟩
    | some k =>
      have hjk : j.id ≠ k.id := fun he =>
        hne j hc (hd.trans (congrArg some (h.eq_of_id (mem_of_concerned? hd) (mem_of_concerned? hc) he.symm)))
      have hc' := concerned?_apply h hd (d := c) fun he => hne j hc (hd.trans (he.symm.trans hc))
      rw [apply_of_some (h.apply c) (hd'.trans hd), apply_of_some (h.apply d) (hc'.trans hc), apply_of_some h hc,
        apply_of_some h hd]
      exact ⟨put_comm hjk (fun _ hl => id_of_after hl) fun _ hl => id_of_after hl, rfl, rfl⟩

end JobTable

open JobTable in
/-- Reports about different jobs, or of which one is about no job, can be accounted for in either order: the table is the same
afterwards, every notice that is due in one order is due in the other, and with each report only the job that it is about is
changed. The table is any well-formed one, as all are that operations reach (`Evolves.turns`). -/
theorem reports_commute (t : JobTable) (r q : Report) (h : t.WellFormed) (hne : ∀ j, t.owner? r = some j → t.owner? q ≠ some j) :
    (t.account [r, q]).1 = (t.account [q, r]).1 ∧
    (t.account [r, q]).2.Perm (t.account [q, r]).2 ∧
    ∀ id, (∀ j, t.owner? r = some j → j.id ≠ id) → (t.childStatus r.groupOf r.status).1.find? id = t.find? id := by
  obtain ⟨htable, hlater, hfirst⟩ := apply_comm h (c := .report r) (d := .report q) hne
  refine ⟨htable, ?_, fun id hid => find?_apply_of_ne h (c := .report r) hid⟩
  have hnotices : ∀ a b : Report, (t.account [a, b]).2 =
      (t.apply (.report a)).2.toList ++ ((t.apply (.report a)).1.apply (.report b)).2.toList := fun a b => by
    rw [account_cons, account_cons, account_nil, List.append_nil]
    rfl
  rw [hnotices, hnotices, hlater, hfirst]
  exact List.perm_append_comm

open JobTable in
/-- A member of one job ends, and the other job stops: whichever is accounted for first, the first job is left with one process
and the second is stopped, of which there is one notice. -/
theorem reports_commute_of_two_jobs :
    let t : JobTable := { lastId := 2, jobs := [
      { id := 1, pgid := 100, command := "sleep 9 | cat", background := true, live := 2, members := [100, 101] },
      { id := 2, pgid := 200, command := "cat", background := true, live := 1, members := [200] }] }
    let r : Report := ⟨fun _ => some 200, .exited 101 0⟩
    let q : Report := ⟨fun _ => none, .stopped 200 .ttin⟩
    t.WellFormed ∧ (∀ j, t.owner? r = some j → t.owner? q ≠ some j) ∧
    (t.account [r, q]).1 = (t.account [q, r]).1 ∧ (t.account [r, q]).2.Perm (t.account [q, r]).2 ∧
    (t.account [q, r]).2 = [.stopped 2 "cat"] ∧
    (t.childStatus r.groupOf r.status).1.find? 2 = t.find? 2 := by
  intro t r q
  have hw : t.WellFormed := ⟨by decide, by decide, by decide⟩
  have howner : t.owner? r = t.find? 1 := by decide
  have hne : ∀ j, t.owner? r = some j → t.owner? q ≠ some j := fun j hj => by
    rw [← hj]
    decide
  obtain ⟨htable, hnotices, hothers⟩ := reports_commute t r q hw hne
  exact ⟨hw, hne, htable, hnotices, by decide, hothers 2 fun j hj => by
    rw [((find?_eq_some_iff hw).1 (howner.symm.trans hj)).2]
    decide⟩

end JobShell
