import JobShell.Proofs.JobTable.Basic

/-!
# What each operation of the job table does

Statements about the operations on a well-formed table: which jobs each leaves, and which notice is due. A status change
concerns the owner of its process only. It never adds a job, and of a job that it leaves it touches nothing but the state and
the count of live processes (`map_childStatus_sublist`).
-/

namespace JobShell

/-- A report of a status change: the change, and what is answered about the groups of processes. -/
structure Report where
  groupOf : Pid → Option Pid
  status : WaitStatus

/-- The process that ended with the change, if it is an end. -/
def WaitStatus.ended? (w : WaitStatus) : Option Pid := w.exit?.bind fun _ => w.pid?

/-- The members that are left when these processes have ended. -/
def leftOf (members gone : List Pid) : List Pid := members.filter (· ∉ gone)

section Left

variable {members gone gone' : List Pid} {pid : Pid}

/-- A member is left when it has not ended. -/
theorem mem_leftOf : pid ∈ leftOf members gone ↔ pid ∈ members ∧ pid ∉ gone := by
  simp [leftOf]

/-- While none of them has ended, all members are left. -/
theorem leftOf_of_disjoint (h : ∀ p ∈ members, p ∉ gone) : leftOf members gone = members := by
  refine List.filter_eq_self.2 fun p hp => ?_
  simpa using h p hp

/-- The end of a process that is no member leaves the same members. -/
theorem leftOf_of_not_mem (hg : ∀ p, p ∈ gone' ↔ p ∈ gone ∨ p = pid) (h : pid ∉ members) :
    leftOf members gone' = leftOf members gone := by
  refine List.filter_congr fun p hp => ?_
  have : p ≠ pid := fun he => h (he ▸ hp)
  simp [hg, this]

/-- The end of a member leaves the others. -/
theorem length_leftOf_of_mem (hg : ∀ p, p ∈ gone' ↔ p ∈ gone ∨ p = pid) (hn : members.Nodup)
    (h : pid ∈ leftOf members gone) : (leftOf members gone').length + 1 = (leftOf members gone).length := by
  have he : leftOf members gone' = (leftOf members gone).erase pid := by
    rw [leftOf, leftOf, (hn.filter _).erase_eq_filter, List.filter_filter]
    refine List.filter_congr fun p _ => ?_
    by_cases hp : p = pid <;> simp [hg, hp]
  rw [he, List.length_erase_of_mem h, Nat.sub_add_cancel (List.length_pos_of_mem h)]

end Left

namespace JobTable

/-- What the collector does to a table at once: it accounts for a report, or ends the job of a group without children. -/
inductive Change where
  | report (r : Report)
  | conclusion (pgid : Pid)

/-- Makes one change; gives the notice that is due. -/
def apply (t : JobTable) : Change → JobTable × Option Notice
  | .report r => t.childStatus r.groupOf r.status
  | .conclusion pgid => t.markFinished pgid .unknown

/-- Makes changes, the first one first; gives the notices that were due. -/
def applyAll (t : JobTable) : List Change → JobTable × List Notice
  | [] => (t, [])
  | c :: rest =>
    let (t, notice) := t.apply c
    let (t, notices) := t.applyAll rest
    (t, notice.toList ++ notices)

/-- Accounts for reports, the first one first; gives the notices that were due. -/
def account (t : JobTable) (reports : List Report) : JobTable × List Notice := t.applyAll (reports.map .report)

/-- The account of nothing. -/
@[simp]
theorem account_nil (t : JobTable) : t.account [] = (t, []) := rfl

/-- The account of a report and the ones after it. -/
theorem account_cons (t : JobTable) (r : Report) (rest : List Report) :
    t.account (r :: rest) =
      (((t.childStatus r.groupOf r.status).1.account rest).1,
        (t.childStatus r.groupOf r.status).2.toList ++ ((t.childStatus r.groupOf r.status).1.account rest).2) := rfl

variable {t : JobTable} {id : JobId} {j k : Job} {pid group : Pid} {status : ExitStatus} {state : JobState}

/-! ## The end of a process -/

/-- The end of a process that belongs to no job is passed over. -/
theorem childExited_of_none (ho : t.ownerOf? pid group = none) : t.childExited pid group status = (t, none) := by
  simp only [childExited, ho]

/-- The end of its last live process ends a job. -/
theorem childExited_of_last (ho : t.ownerOf? pid group = some j) (hl : j.live ≤ 1) :
    t.childExited pid group status = t.finish j status := by
  simp only [childExited, ho]
  exact if_pos (by omega)

/-- The end of another process is counted. -/
theorem childExited_of_more (h : t.WellFormed) (ho : t.ownerOf? pid group = some j) (hl : 1 < j.live) :
    t.childExited pid group status = (t.modify j.id fun i => { i with live := i.live - 1 }, none) := by
  have hw : (t.modify j.id fun i => { i with live := i.live - 1 }).WellFormed := h.modify (fun _ => rfl) fun _ hi => hi
  simp only [childExited, ho]
  rw [if_neg (by omega), sweep_of_tracked hw.tracked]

/-- The jobs after the end of a process: its owner has one live process less, or is gone with its last one. -/
theorem mem_childExited (h : t.WellFormed) (ho : t.ownerOf? pid group = some j) :
    k ∈ (t.childExited pid group status).1.jobs ↔
      (k ∈ t.jobs ∧ k.id ≠ j.id) ∨ (1 < j.live ∧ k = { j with live := j.live - 1 }) := by
  by_cases hl : j.live ≤ 1
  · rw [childExited_of_last ho hl, mem_finish h]
    exact ⟨Or.inl, fun hk => hk.resolve_right fun hn => absurd hn.1 (by omega)⟩
  · rw [childExited_of_more h ho (by omega), mem_modify h (ownerOf?_some ho).1]
    simp only [show 1 < j.live by omega, true_and]

/-- The end of a process keeps a table well-formed. -/
theorem WellFormed.childExited (h : t.WellFormed) (pid group : Pid) (status : ExitStatus) :
    (t.childExited pid group status).1.WellFormed := by
  cases ho : t.ownerOf? pid group with
  | none =>
    rw [childExited_of_none ho]
    exact h
  | some j =>
    by_cases hl : j.live ≤ 1
    · rw [childExited_of_last ho hl]
      exact h.finish status
    · rw [childExited_of_more h ho (by omega)]
      exact h.modify (fun _ => rfl) fun _ hi => hi

/-! ## A process that stops or goes on -/

/-- A process that belongs to no job stops or goes on without notice. -/
theorem childMoved_of_none (ho : t.ownerOf? pid group = none) : t.childMoved pid group state = (t, none) := by
  simp only [childMoved, ho]

/-- A process that stops or goes on gives its owner the new state; a job that stops is news. -/
theorem childMoved_of_owner (ho : t.ownerOf? pid group = some j) :
    t.childMoved pid group state = (t.modify j.id fun i => { i with state },
      if j.state ≠ state ∧ state = .stopped then some (.stopped j.id j.command) else none) := by
  simp only [childMoved, ho]

/-! ## A status change -/

/-- What kinds of status change there are to account for: none, a stop, a continuation, or an end. -/
theorem childStatus_cases (t : JobTable) (groupOf : Pid → Option Pid) (w : WaitStatus) :
    (∃ pid signal, w = .stopped pid signal ∧
      t.childStatus groupOf w = t.childMoved pid ((groupOf pid).getD pid) .stopped) ∨
    (∃ pid, w = .continued pid ∧ t.childStatus groupOf w = t.childMoved pid ((groupOf pid).getD pid) .running) ∨
    (∃ pid exit, w.pid? = some pid ∧ w.exit? = some exit ∧
      t.childStatus groupOf w = t.childExited pid ((groupOf pid).getD pid) exit) ∨
    (w.exit? = none ∧ t.childStatus groupOf w = (t, none)) := by
  cases w with
  | exited pid code => exact Or.inr (Or.inr (Or.inl ⟨pid, _, rfl, rfl, rfl⟩))
  | signaled pid signal core => exact Or.inr (Or.inr (Or.inl ⟨pid, _, rfl, rfl, rfl⟩))
  | stopped pid signal => exact Or.inl ⟨pid, signal, rfl, rfl⟩
  | continued pid => exact Or.inr (Or.inl ⟨pid, rfl, rfl⟩)
  | traceEvent pid => exact Or.inr (Or.inr (Or.inr ⟨rfl, rfl⟩))
  | traceCall pid => exact Or.inr (Or.inr (Or.inr ⟨rfl, rfl⟩))
  | stillAlive => exact Or.inr (Or.inr (Or.inr ⟨rfl, rfl⟩))

section Views

variable {α : Type} (g : Job → α)

/-- A table in which a job ended shows a sublist of what it showed. -/
theorem map_finish_sublist : ((t.finish j status).1.jobs.map g).Sublist (t.jobs.map g) := by
  rw [finish_jobs]
  exact List.filter_sublist.map g

/-- Leaving out the ended jobs leaves a sublist. -/
theorem map_sweep_sublist : (t.sweep.jobs.map g).Sublist (t.jobs.map g) :=
  List.filter_sublist.map g

/-- Where the count of live processes does not show, the end of a process leaves a sublist of what a table shows. -/
theorem map_childExited_sublist (hl : ∀ j live, g { j with live } = g j) (pid group : Pid) (status : ExitStatus) :
    ((t.childExited pid group status).1.jobs.map g).Sublist (t.jobs.map g) := by
  rw [childExited]
  split
  · exact List.Sublist.refl _
  · split
    · exact map_finish_sublist g
    · refine (map_sweep_sublist g).trans ?_
      rw [map_modify g fun j => hl j _]

/-- Where neither the state nor the count of live processes shows, a status change leaves a sublist of what a table shows. -/
theorem map_childStatus_sublist (hl : ∀ j live, g { j with live } = g j) (hs : ∀ j state, g { j with state } = g j)
    (groupOf : Pid → Option Pid) (w : WaitStatus) :
    ((t.childStatus groupOf w).1.jobs.map g).Sublist (t.jobs.map g) := by
  have moved : ∀ pid group state, ((t.childMoved pid group state).1.jobs.map g).Sublist (t.jobs.map g) := by
    intro pid group state
    simp only [childMoved]
    split
    · exact List.Sublist.refl _
    · rw [map_modify g fun j => hs j state]
  rcases childStatus_cases t groupOf w with ⟨pid, _, -, he⟩ | ⟨pid, -, he⟩ | ⟨pid, exit, -, -, he⟩ | ⟨-, he⟩
  · rw [he]
    exact moved pid _ _
  · rw [he]
    exact moved pid _ _
  · rw [he]
    exact map_childExited_sublist g hl pid _ exit
  · rw [he]

/-- Ending the job of a group leaves a sublist of what a table shows. -/
theorem map_markFinished_sublist (pgid : Pid) (status : ExitStatus) :
    ((t.markFinished pgid status).1.jobs.map g).Sublist (t.jobs.map g) := by
  simp only [markFinished]
  split
  · exact map_finish_sublist g
  · exact map_sweep_sublist g

end Views

/-- The end of a process registers no job. -/
theorem lastId_childExited : (t.childExited pid group status).1.lastId = t.lastId := by
  rw [childExited]
  split
  · rfl
  · split <;> rfl

/-- The end of the job of a group registers no job. -/
theorem lastId_markFinished {pgid : Pid} : (t.markFinished pgid status).1.lastId = t.lastId := by
  rw [markFinished]
  split <;> rfl

/-- A process that stops or goes on registers no job. -/
theorem lastId_childMoved : (t.childMoved pid group state).1.lastId = t.lastId := by
  rw [childMoved]
  split <;> rfl

/-- A status change registers no job. -/
theorem lastId_childStatus (groupOf : Pid → Option Pid) (w : WaitStatus) :
    (t.childStatus groupOf w).1.lastId = t.lastId := by
  rcases childStatus_cases t groupOf w with ⟨pid, _, -, he⟩ | ⟨pid, -, he⟩ | ⟨pid, exit, -, -, he⟩ | ⟨-, he⟩
  · rw [he, lastId_childMoved]
  · rw [he, lastId_childMoved]
  · rw [he, lastId_childExited]
  · rw [he]

/-- A status change keeps a table well-formed. -/
theorem WellFormed.childStatus (h : t.WellFormed) (groupOf : Pid → Option Pid) (w : WaitStatus) :
    (t.childStatus groupOf w).1.WellFormed := by
  refine h.of_sublist (map_childStatus_sublist _ (fun _ _ => rfl) (fun _ _ => rfl) groupOf w)
    (lastId_childStatus groupOf w) ?_
  have moved : ∀ pid group state, state ≠ .done → ∀ i ∈ (t.childMoved pid group state).1.jobs, i.isTracked = true := by
    intro pid group state hn
    simp only [JobTable.childMoved]
    split
    · exact h.tracked
    · rename_i j _
      have hm : (t.modify j.id fun i => { i with state }).WellFormed := h.modify (fun _ => rfl) fun _ _ => bne_iff_ne.2 hn
      exact hm.tracked
  rcases childStatus_cases t groupOf w with ⟨pid, _, -, he⟩ | ⟨pid, -, he⟩ | ⟨pid, exit, -, -, he⟩ | ⟨-, he⟩
  · rw [he]
    exact moved pid _ _ (by decide)
  · rw [he]
    exact moved pid _ _ (by decide)
  · rw [he, JobTable.childExited]
    split
    · exact h.tracked
    · split
      · exact (h.finish exit).tracked
      · intro i hi
        exact (List.mem_filter.1 hi).2
  · rw [he]
    exact h.tracked

/-- A status change makes no job count more. -/
theorem live_childStatus (h : t.WellFormed) (groupOf : Pid → Option Pid) (w : WaitStatus)
    (hk : k ∈ (t.childStatus groupOf w).1.jobs) : ∃ j ∈ t.jobs, j.id = k.id ∧ k.live ≤ j.live := by
  have moved : ∀ {pid group state}, k ∈ (t.childMoved pid group state).1.jobs → ∃ j ∈ t.jobs, j.id = k.id ∧ k.live ≤ j.live := by
    intro pid group state hk
    cases ho : t.ownerOf? pid group with
    | none =>
      rw [childMoved_of_none ho] at hk
      exact ⟨k, hk, rfl, Nat.le_refl _⟩
    | some j =>
      have hj := (ownerOf?_some ho).1
      rw [childMoved_of_owner ho] at hk
      rcases (mem_modify h hj).1 hk with ⟨hk, -⟩ | rfl
      · exact ⟨k, hk, rfl, Nat.le_refl _⟩
      · exact ⟨j, hj, rfl, Nat.le_refl _⟩
  rcases childStatus_cases t groupOf w with ⟨pid, _, -, he⟩ | ⟨pid, -, he⟩ | ⟨pid, exit, -, -, he⟩ | ⟨-, he⟩
  · exact moved (he ▸ hk)
  · exact moved (he ▸ hk)
  · rw [he] at hk
    cases ho : t.ownerOf? pid ((groupOf pid).getD pid) with
    | none =>
      rw [childExited_of_none ho] at hk
      exact ⟨k, hk, rfl, Nat.le_refl _⟩
    | some j =>
      rcases (mem_childExited h ho).1 hk with ⟨hk, -⟩ | ⟨-, rfl⟩
      · exact ⟨k, hk, rfl, Nat.le_refl _⟩
      · exact ⟨j, (ownerOf?_some ho).1, rfl, Nat.sub_le _ _⟩
  · rw [he] at hk
    exact ⟨k, hk, rfl, Nat.le_refl _⟩

/-! ## The end of a foreground wait -/

/-- Ending the job of a group without a job changes nothing. -/
theorem markFinished_of_none (h : t.WellFormed) (ho : t.ofGroup? group = none) :
    t.markFinished group status = (t, none) := by
  simp only [markFinished, ho, sweep_of_tracked h.tracked]

/-- Ending the job of a group ends that job. -/
theorem markFinished_of_some (ho : t.ofGroup? group = some j) : t.markFinished group status = t.finish j status := by
  simp only [markFinished, ho]

/-- Ending the job of a group keeps a table well-formed. -/
theorem WellFormed.markFinished (h : t.WellFormed) (group : Pid) (status : ExitStatus) :
    (t.markFinished group status).1.WellFormed := by
  cases ho : t.ofGroup? group with
  | none =>
    rw [markFinished_of_none h ho]
    exact h
  | some j =>
    rw [markFinished_of_some ho]
    exact h.finish status

variable {command : String} {live : Nat} {members : List Pid}

/-- A group with a job stops in the foreground: its job is stopped and counts what is said to be left. -/
theorem trackStopped_of_some (ho : t.ofGroup? group = some j) :
    t.trackStopped group command live members =
      (t.modify j.id fun i => { i with state := .stopped, background := false, waited := false, live }, j.id,
        (t.find? j.id).map fun i => .stopped j.id i.command) := by
  simp only [trackStopped, ho]

/-- A group without a job stops in the foreground: it is registered, and its job stopped. -/
theorem trackStopped_of_none (ho : t.ofGroup? group = none) :
    t.trackStopped group command live members =
      ((t.insert group command false live members).1.modify (t.lastId + 1)
          fun i => { i with state := .stopped, background := false, waited := false, live }, t.lastId + 1,
        ((t.insert group command false live members).1.find? (t.lastId + 1)).map fun i => .stopped (t.lastId + 1) i.command) := by
  simp only [trackStopped, ho]
  rfl

/-- The jobs after a group with a job stopped in the foreground. -/
theorem mem_trackStopped_of_some (h : t.WellFormed) (ho : t.ofGroup? group = some j) :
    k ∈ (t.trackStopped group command live members).1.jobs ↔
      (k ∈ t.jobs ∧ k.id ≠ j.id) ∨ k = { j with state := .stopped, background := false, waited := false, live } := by
  rw [trackStopped_of_some ho, mem_modify h (ofGroup?_some ho).1]

/-- The jobs after a group without a job stopped in the foreground. -/
theorem mem_trackStopped_of_none (h : t.WellFormed) (ho : t.ofGroup? group = none) :
    k ∈ (t.trackStopped group command live members).1.jobs ↔
      k ∈ t.jobs ∨
        k = { id := t.lastId + 1, pgid := group, command, state := .stopped, background := false, live, members } := by
  have hnew : (⟨t.lastId + 1, group, command, .running, false, live, members, false⟩ : Job) ∈
      (t.insert group command false live members).1.jobs := mem_insert.2 (Or.inr rfl)
  rw [trackStopped_of_none ho, mem_modify (h.insert ..) hnew, mem_insert]
  constructor
  · rintro (⟨hk | rfl, hne⟩ | rfl)
    · exact Or.inl hk
    · exact absurd rfl hne
    · exact Or.inr rfl
  · rintro (hk | rfl)
    · exact Or.inl ⟨Or.inl hk, Nat.ne_of_lt (Nat.lt_succ_of_le (h.issued k hk).2)⟩
    · exact Or.inr rfl

/-- A group that stops in the foreground keeps a table well-formed. -/
theorem WellFormed.trackStopped (h : t.WellFormed) (group : Pid) (command : String) (live : Nat) (members : List Pid) :
    (t.trackStopped group command live members).1.WellFormed := by
  cases ho : t.ofGroup? group with
  | none =>
    rw [trackStopped_of_none ho]
    exact (h.insert ..).modify (fun _ => rfl) fun _ _ => rfl
  | some j =>
    rw [trackStopped_of_some ho]
    exact h.modify (fun _ => rfl) fun _ _ => rfl

/-! ## Claims and resumptions -/

variable {t' : JobTable} {c : Claim} {n : Notice}

/-- A claim is one of the job with the number, which a foreground wait owns from then on. -/
theorem claim?_some (h : t.claim? id = some (t', c)) :
    ∃ j, t.find? id = some j ∧
      t' = t.modify id (fun i => { i with background := false, state := .running, waited := true }) ∧
      c = { group := { pgid := j.pgid, expected := j.live, statusPid := j.members.getLast? }, command := j.command,
            background := j.background, state := j.state } := by
  obtain ⟨j, hj, he⟩ := Option.map_eq_some_iff.1 h
  obtain ⟨rfl, rfl⟩ := Prod.mk.inj he
  exact ⟨j, hj, rfl, rfl⟩

/-- A resumption is one of the job with the number, which runs in the background from then on. -/
theorem resume?_some (h : t.resume? id = some (t', n)) :
    ∃ j, t.find? id = some j ∧ t' = t.modify id (fun i => { i with background := true, state := .running }) ∧
      n = .resumed id j.command := by
  obtain ⟨j, hj, he⟩ := Option.map_eq_some_iff.1 h
  obtain ⟨rfl, rfl⟩ := Prod.mk.inj he
  exact ⟨j, hj, rfl, rfl⟩

/-- What is put back for a job that had not ended keeps a table well-formed. -/
theorem WellFormed.restore (h : t.WellFormed) (hc : c.state ≠ .done) (id : JobId) : (t.restore id c).WellFormed :=
  h.modify (fun _ => rfl) fun _ _ => bne_iff_ne.2 hc

end JobTable

end JobShell
