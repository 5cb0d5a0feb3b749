import JobShell.Proofs.Threads.Exclusion

/-!
# The books of both collectors

The end of a process is counted in one of two ways. What the collector takes it records under the table's own rules, one process
at a time; what a foreground wait takes it keeps to itself, and writes back what is left when the job stops.
`accounting_of_both` says that the two agree with the system, whichever of them took what: a job counts the members that were
not collected, and is there as long as there are any.

The invariant is `Balanced`. It holds at every point of both threads, so it says what is `due` while an end is on its way to the
table, and what a wait has still to expect while it is on (`Covered`).
-/

namespace JobShell

/-- The group of a foreground wait that is on, or whose result is still to be recorded. -/
def ShellPoint.waitGroup? : ShellPoint → Option Pid
  | .waiting f _ | .settling f _ => some f.group.pgid
  | _ => none

/-- One, while the end of a member of the pipeline was taken by the collector and is still to be recorded. -/
def CollectorPoint.owed (c : CollectorPoint) (l : Launched) : Nat :=
  match c with
  | .recording w _ => if ∃ pid ∈ l.pids, w.ended? = some pid then 1 else 0
  | _ => 0

namespace Ledger

variable (L : Ledger)

/-- What the job of the pipeline has to count: the members left, and one whose end is still to be recorded. -/
def due (c : CollectorPoint) (l : Launched) : Nat := (L.left l).length + c.owed l

/-- No job was registered for the group. -/
def Unregistered (g : Pid) : Prop := ∀ r ∈ L.registered, r.2.pgid ≠ g

/-- The jobs are those of registered pipelines, each registered once, under a number of its own. -/
structure Registry (t : JobTable) : Prop where
  tracked : ∀ j ∈ t.jobs, ∃ l, (j.id, l) ∈ L.registered ∧ l.pgid = j.pgid ∧ l.pids = j.members
  launched : ∀ r ∈ L.registered, r.2 ∈ L.launched
  issued : ∀ r ∈ L.registered, r.1 ≤ t.lastId
  numbers : ∀ r ∈ L.registered, ∀ r' ∈ L.registered, r.1 = r'.1 → r = r'
  groups : ∀ r ∈ L.registered, ∀ r' ∈ L.registered, r.2.pgid = r'.2.pgid → r = r'

/-- The collector visits groups of registered pipelines. An end that it took is one of a member of such a pipeline, and it is
about to conclude a group only when all of it was collected. -/
structure Pending (c : CollectorPoint) : Prop where
  visited : ∀ g ∈ c.work, ∃ r ∈ L.registered, r.2.pgid = g
  reported : ∀ w work, c = .recording w work → ∀ pid, w.ended? = some pid →
    ∃ r ∈ L.registered, r.2.pgid ∈ work ∧ pid ∈ r.2.pids
  concluded : ∀ g work, c = .concluding g work → ∀ l ∈ L.launched, l.pgid = g → L.left l = []

/-- Outside a foreground wait on its group, the job of a pipeline counts what is due, and is there while anything is. -/
def Counted (t : JobTable) (c : CollectorPoint) (wait : Option Pid) : Prop :=
  ∀ r ∈ L.registered, wait ≠ some r.2.pgid →
    (∀ j ∈ t.jobs, j.id = r.1 → j.live = L.due c r.2 ∧ 0 < j.live) ∧ ((∀ j ∈ t.jobs, j.id ≠ r.1) → L.due c r.2 = 0)

/-- The wait is one for this pipeline: for a job of it, which counts what the wait expected, or before there is one. -/
def Serves (t : JobTable) (f : Foreground) (l : Launched) : Prop :=
  l ∈ L.launched ∧ l.pgid = f.group.pgid ∧
    match f.claimed with
    | none => f.members = l.pids ∧ L.Unregistered l.pgid
    | some _ => ∃ j ∈ t.jobs, j.pgid = l.pgid ∧ j.live = f.group.expected

/-- What a wait came to agrees with what is left of the pipeline. -/
def Agrees (f : Foreground) (l : Launched) : Except Errno ForegroundOutcome → Prop
  | .ok (.finished _) => L.left l = []
  | .ok (.stopped _ live) => live = (L.left l).length ∧ 0 < live ∧ live ≤ f.group.expected
  | .error _ => False

/-- What the shell knows of the group it has in hand: before a wait, that nothing of it was collected or what its job counts; in
the wait, that it has collected what is missing; and after it, that the result agrees. -/
def Covered (t : JobTable) : ShellPoint → Prop
  | .launched l .. => l ∈ L.launched ∧ L.Unregistered l.pgid ∧ L.left l = l.pids
  | .unlocking _ (some c) | .continuing _ c | .restoring _ c _ =>
    ∃ j ∈ t.jobs, j.pgid = c.group.pgid ∧ j.live = c.group.expected
  | .waiting f p => ∃ l, L.Serves t f l ∧ f.group.expected = (L.left l).length + p.collected
  | .settling f result => ∃ l, L.Serves t f l ∧ L.Agrees f l result
  | _ => True

/-- The books balance. -/
structure Balanced (s : State) : Prop where
  registry : L.Registry s.table
  pending : L.Pending s.collector
  counted : L.Counted s.table s.collector s.shell.waitGroup?
  covered : L.Covered s.table s.shell

end Ledger

/-- The second table has the jobs of the first with the same members and the same counts. -/
structure JobTable.SameCounts (t t' : JobTable) : Prop where
  lastId : t'.lastId = t.lastId
  jobs : (t'.jobs.map fun j => (j.id, j.pgid, j.members, j.live)) = t.jobs.map fun j => (j.id, j.pgid, j.members, j.live)

namespace JobTable.SameCounts

variable {t t' : JobTable} {j : Job}

/-- A table has its own counts. -/
theorem refl (t : JobTable) : SameCounts t t := ⟨rfl, rfl⟩

/-- The counts of two tables are the same both ways. -/
theorem symm (h : SameCounts t t') : SameCounts t' t := ⟨h.lastId.symm, h.jobs.symm⟩

/-- A job of the second table is one of the first, as far as it counts. -/
theorem back (h : SameCounts t t') (hj : j ∈ t'.jobs) :
    ∃ k ∈ t.jobs, k.id = j.id ∧ k.pgid = j.pgid ∧ k.members = j.members ∧ k.live = j.live := by
  have hm : (j.id, j.pgid, j.members, j.live) ∈ t.jobs.map fun j => (j.id, j.pgid, j.members, j.live) := by
    rw [← h.jobs]
    exact List.mem_map.2 ⟨j, hj, rfl⟩
  obtain ⟨k, hk, he⟩ := List.mem_map.1 hm
  simp only [Prod.mk.injEq] at he
  exact ⟨k, hk, he⟩

/-- The change of a job in its state, its place or its owner leaves the counts. -/
theorem modify {change : Job → Job} (t : JobTable) (id : JobId)
    (h : ∀ j, (change j).id = j.id ∧ (change j).pgid = j.pgid ∧ (change j).members = j.members ∧ (change j).live = j.live) :
    SameCounts t (t.modify id change) := by
  refine ⟨rfl, map_modify _ fun j => ?_⟩
  obtain ⟨h1, h2, h3, h4⟩ := h j
  rw [h1, h2, h3, h4]

end JobTable.SameCounts

namespace BalanceAux

open JobTable HistoriesAux Ledger

variable {L : Ledger} {t t' : JobTable} {c c' : CollectorPoint} {p : ShellPoint} {l : Launched} {pid g : Pid} {f : Foreground}
  {w : Option Pid}

/-! ### Tables with the same counts -/

/-- The registry is one of ids and members only. -/
theorem registry_same (h : L.Registry t) (hs : SameCounts t t') : L.Registry t' := by
  refine ⟨fun j hj => ?_, h.launched, fun r hr => hs.lastId ▸ h.issued r hr, h.numbers, h.groups⟩
  obtain ⟨k, hk, hid, hg, hm, -⟩ := hs.back hj
  rw [← hid, ← hg, ← hm]
  exact h.tracked k hk

/-- Jobs of the same counts count what is due as before. -/
theorem counted_same (h : L.Counted t c w) (hs : SameCounts t t') (hc : ∀ r ∈ L.registered, c'.owed r.2 = c.owed r.2) :
    L.Counted t' c' w := by
  intro r hr hw
  obtain ⟨hcount, hgone⟩ := h r hr hw
  have hdue : L.due c' r.2 = L.due c r.2 := by rw [due, due, hc r hr]
  rw [hdue]
  refine ⟨fun j hj he => ?_, fun hn => hgone fun j hj => ?_⟩
  · obtain ⟨k, hk, hid, -, -, hl⟩ := hs.back hj
    rw [← hl]
    exact hcount k hk (hid.trans he)
  · obtain ⟨k, hk, hid, -⟩ := hs.symm.back hj
    rw [← hid]
    exact hn k hk

/-- Jobs of the same counts are there for a wait as before. -/
theorem job_same (hs : SameCounts t t') {n : Nat} (h : ∃ j ∈ t.jobs, j.pgid = g ∧ j.live = n) :
    ∃ j ∈ t'.jobs, j.pgid = g ∧ j.live = n := by
  obtain ⟨j, hj, rfl, rfl⟩ := h
  obtain ⟨k, hk, -, hg, -, hl⟩ := hs.symm.back hj
  exact ⟨k, hk, hg, hl⟩

/-! ### The registry -/

/-- The job with the number of a registered pipeline is the one of the pipeline. -/
theorem job_of_number (h : L.Registry t) {r : JobId × Launched} (hr : r ∈ L.registered) {j : Job} (hj : j ∈ t.jobs)
    (he : j.id = r.1) : r.2.pgid = j.pgid ∧ r.2.pids = j.members := by
  obtain ⟨l, hl, hg, hm⟩ := h.tracked j hj
  rw [← h.numbers _ hl r hr he]
  exact ⟨hg, hm⟩

/-- The job with the group of a registered pipeline is the one of the pipeline. -/
theorem number_of_group (h : L.Registry t) {r : JobId × Launched} (hr : r ∈ L.registered) {j : Job} (hj : j ∈ t.jobs)
    (he : j.pgid = r.2.pgid) : j.id = r.1 := by
  obtain ⟨l, hl, hg, -⟩ := h.tracked j hj
  rw [← h.groups _ hl r hr (hg.trans he)]

/-- No job has the group of a pipeline that was not registered. -/
theorem no_job_of_unregistered (h : L.Registry t) (hu : L.Unregistered g) {j : Job} (hj : j ∈ t.jobs) : j.pgid ≠ g := by
  obtain ⟨l, hl, hg, -⟩ := h.tracked j hj
  rw [← hg]
  exact hu _ hl

/-- Pipelines that were registered and share a member are one. -/
theorem registered_of_member (h : L.Registry t) (hp : L.Proper) {r r' : JobId × Launched} (hr : r ∈ L.registered)
    (hr' : r' ∈ L.registered) (hm : pid ∈ r.2.pids) (hm' : pid ∈ r'.2.pids) : r = r' := by
  refine h.groups r hr r' hr' ?_
  rw [hp.members _ (h.launched r hr) _ (h.launched r' hr') pid hm hm']

/-! ### What is owed -/

/-- Nothing is owed to a pipeline that the pass has nothing to do with. -/
theorem owed_of_unvisited (h : L.Registry t) (hp : L.Proper) (hc : L.Pending c) (hl : l ∈ L.launched)
    (hg : l.pgid ∉ c.work) : c.owed l = 0 := by
  cases c with
  | recording w work =>
    refine if_neg ?_
    rintro ⟨pid, hm, he⟩
    obtain ⟨r, hr, hw, hm'⟩ := hc.reported w work rfl pid he
    rw [← hp.members _ hl _ (h.launched r hr) pid hm hm'] at hw
    exact hg hw
  | _ => rfl

/-- Nothing is owed where nothing is on its way to the table. -/
theorem owed_of_not_recording (h : c.isRecording = false) : c.owed l = 0 := by
  cases c <;> first | rfl | cases h

/-- The collector goes on with nothing owed after a notice. -/
@[simp]
theorem isRecording_tell (n : Option Notice) (work : List Pid) : (CollectorPoint.tell n work).isRecording = false := by
  cases n <;> rfl

/-- A pass that goes on has the groups that it had left to visit, and nothing on its way. -/
theorem pending_tell (n : Option Notice) {work : List Pid} (h : ∀ g ∈ work, ∃ r ∈ L.registered, r.2.pgid = g) :
    L.Pending (.tell n work) := by
  cases n <;> exact ⟨h, nofun, nofun⟩

/-! ### What is in hand -/

/-- What the shell knows of the group in hand is still so when the same of it is left and its job counts the same. -/
theorem covered_mono {L' : Ledger} (h : L.Covered t p) (hr : L'.registered = L.registered) (hl : L.launched ⊆ L'.launched)
    (hleft : ∀ a ∈ L.launched, p.group? = some a.pgid → L'.left a = L.left a)
    (hjobs : ∀ j ∈ t.jobs, p.group? = some j.pgid → ∃ k ∈ t'.jobs, k.pgid = j.pgid ∧ k.live = j.live) :
    L'.Covered t' p := by
  have hjob : ∀ g n, p.group? = some g → (∃ j ∈ t.jobs, j.pgid = g ∧ j.live = n) → ∃ k ∈ t'.jobs, k.pgid = g ∧ k.live = n := by
    rintro _ _ hg ⟨j, hj, rfl, rfl⟩
    exact hjobs j hj hg
  have hserves : ∀ f l, p.group? = some f.group.pgid → L.Serves t f l → L'.Serves t' f l := by
    rintro f l hg ⟨hm, he, hc⟩
    refine ⟨hl hm, he, ?_⟩
    rw [← he] at hg
    cases hf : f.claimed with
    | none =>
      rw [hf] at hc
      exact ⟨hc.1, fun r hr' => hc.2 r (hr ▸ hr')⟩
    | some _ =>
      rw [hf] at hc
      exact hjob _ _ hg hc
  cases p with
  | launched l command background =>
    obtain ⟨hm, hu, he⟩ := h
    exact ⟨hl hm, fun r hr' => hu r (hr ▸ hr'), (hleft l hm rfl).trans he⟩
  | waiting f p =>
    obtain ⟨l, hs, he⟩ := h
    refine ⟨l, hserves f l rfl hs, ?_⟩
    rw [hleft l hs.1 (congrArg some hs.2.1.symm)]
    exact he
  | settling f result =>
    obtain ⟨l, hs, ha⟩ := h
    refine ⟨l, hserves f l rfl hs, ?_⟩
    have he := hleft l hs.1 (congrArg some hs.2.1.symm)
    rcases result with cause | status | ⟨signal, live⟩
    · exact ha
    · exact he.trans ha
    · simpa only [Agrees, he] using ha
  | unlocking id c =>
    cases c with
    | none => trivial
    | some c => exact hjob _ _ rfl h
  | continuing id c => exact hjob _ _ rfl h
  | restoring id c cause => exact hjob _ _ rfl h
  | _ => trivial

/-- What the shell knows of the group in hand does not lean on more than the counts. -/
theorem covered_same (h : L.Covered t p) (hs : SameCounts t t') : L.Covered t' p := by
  refine covered_mono h rfl (List.Subset.refl _) (fun _ _ _ => rfl) fun j hj _ => ?_
  obtain ⟨k, hk, -, hg, -, hl⟩ := hs.symm.back hj
  exact ⟨k, hk, hg, hl⟩

/-- What is waited for is in hand. -/
theorem group?_of_waitGroup (h : p.waitGroup? = some g) : p.group? = some g := by
  cases p <;> first | exact h | cases h

end BalanceAux

/-! ## The steps of the collector -/

namespace Ledger.Balanced

open BalanceAux HistoriesAux JobTable

variable {L : Ledger} {es : List Event} {s s' : State} {l : Launched} {w : WaitStatus} {pid g : Pid} {work rest : List Pid}

/-- The collector goes on with the same counts, and with the same owed. -/
theorem collector (h : L.Balanced s) (hs : s'.shell = s.shell) (ht : SameCounts s.table s'.table) (hp : L.Pending s'.collector)
    (hc : ∀ r ∈ L.registered, s'.collector.owed r.2 = s.collector.owed r.2) : L.Balanced s' := by
  refine ⟨registry_same h.registry ht, hp, ?_, ?_⟩
  · rw [hs]
    exact counted_same h.counted ht hc
  · rw [hs]
    exact covered_same h.covered ht

/-- The pipeline of a group that the pass visits is registered. -/
theorem registered_of_work (h : L.Balanced s) (hp : L.Proper) (hl : l ∈ L.launched) (hg : l.pgid ∈ s.collector.work) :
    ∃ r ∈ L.registered, r.2 = l := by
  obtain ⟨r, hr, he⟩ := h.pending.visited l.pgid hg
  exact ⟨r, hr, hp.groups _ (h.registry.launched r hr) l hl he⟩

/-- No foreground wait is on for a group that the pass has to do with. -/
theorem not_waited (hx : Exclusive es s) (hg : g ∈ s.collector.work) : s.shell.waitGroup? ≠ some g := fun hw =>
  hx.unvisited g (group?_of_waitGroup hw) hg

/-- The collector takes the end of a member: one less is left, and one more is on its way to the table. -/
theorem poll_end (h : L.Balanced s) (hp : L.Proper) (hx : Exclusive es s) (hat : s.collector = .visiting (g :: rest))
    (hl : l ∈ L.launched) (hg : l.pgid = g) (hpid : pid ∈ L.left l) (he : w.ended? = some pid) :
    { L with collected := pid :: L.collected }.Balanced { s with collector := .recording w (g :: rest) } := by
  have hwork : s.collector.work = g :: rest := by rw [hat]; rfl
  have hmem : pid ∈ l.pids := mem_pids_of_left hpid
  have hin : l.pgid ∈ s.collector.work := by rw [hwork, hg]; exact List.mem_cons_self
  obtain ⟨r, hr, hrl⟩ := h.registered_of_work hp hl hin
  have hother : ∀ a ∈ L.launched, a ≠ l → { L with collected := pid :: L.collected }.left a = L.left a :=
    fun a ha hne => left_of_not_mem fun hm => hne (hp.members a ha l hl pid hm hmem)
  refine ⟨⟨h.registry.tracked, h.registry.launched, h.registry.issued, h.registry.numbers, h.registry.groups⟩,
    ⟨?_, ?_, nofun⟩, ?_, ?_⟩
  · exact fun g' hg' => h.pending.visited g' (hwork ▸ hg')
  · rintro _ _ ⟨⟩ q hq
    obtain rfl := Option.some.inj (he.symm.trans hq)
    exact ⟨r, hr, by rw [hrl, hg]; exact List.mem_cons_self, by rw [hrl]; exact hmem⟩
  · intro r' hr' hw'
    have hsame : { L with collected := pid :: L.collected }.due (.recording w (g :: rest)) r'.2 =
        L.due s.collector r'.2 := by
      have hbefore : s.collector.owed r'.2 = 0 := owed_of_not_recording (by rw [hat]; rfl)
      rw [due, due, hbefore]
      by_cases hm : pid ∈ r'.2.pids
      · have hlen := length_left_of_mem (hp.nodup l hl) hpid
        rw [hp.members _ (h.registry.launched r' hr') l hl pid hm hmem]
        exact (congrArg _ (if_pos ⟨pid, hmem, he⟩)).trans hlen
      · rw [left_of_not_mem hm]
        refine congrArg _ (if_neg ?_)
        rintro ⟨q, hq, hqe⟩
        exact hm (Option.some.inj (he.symm.trans hqe) ▸ hq)
    rw [hsame]
    exact h.counted r' hr' hw'
  · refine covered_mono h.covered rfl (List.Subset.refl _) (fun a ha hga => hother a ha ?_) fun j hj _ => ⟨j, hj, rfl, rfl⟩
    rintro rfl
    exact hx.unvisited _ hga hin

/-- The collector records the end of a member: it is no longer owed, and its job counts one less or is gone. -/
theorem record_end (h : L.Balanced s) (hp : L.Proper) (hw : s.table.WellFormed) (hx : Exclusive es s)
    (hat : s.collector = .recording w work) (he : w.ended? = some pid) (group : Pid) (status : ExitStatus)
    (n : Option Notice) :
    L.Balanced { s with table := (s.table.childExited pid group status).1, collector := .tell n work } := by
  have hwork : s.collector.work = work := by rw [hat]; rfl
  obtain ⟨r, hr, hrw, hrm⟩ := h.pending.reported w work hat pid he
  have howed : ∀ r' ∈ L.registered, s.collector.owed r'.2 = if r' = r then 1 else 0 := by
    intro r' hr'
    rw [hat]
    by_cases heq : r' = r
    · rw [if_pos heq, heq]
      exact if_pos ⟨pid, hrm, he⟩
    · rw [if_neg heq]
      refine if_neg ?_
      rintro ⟨q, hq, hqe⟩
      obtain rfl := Option.some.inj (he.symm.trans hqe)
      exact heq (registered_of_member h.registry hp hr' hr hq hrm)
  have hnow : ∀ r' : JobId × Launched, L.due (.tell n work) r'.2 = (L.left r'.2).length := fun r' => by
    rw [due, owed_of_not_recording (isRecording_tell n work), Nat.add_zero]
  obtain ⟨hcount, hgone⟩ := h.counted r hr (not_waited hx (hwork ▸ hrw))
  rw [due, howed r hr, if_pos rfl] at hcount hgone
  obtain ⟨j, hj, hid⟩ : ∃ j ∈ s.table.jobs, j.id = r.1 := by
    by_contra hn
    have := hgone fun j hj hid => hn ⟨j, hj, hid⟩
    omega
  obtain ⟨hlive, hpos⟩ := hcount j hj hid
  obtain ⟨hjg, hjm⟩ := job_of_number h.registry hr hj hid
  have ho : s.table.ownerOf? pid group = some j := by
    refine ownerOf?_of_member hw hj (hjm ▸ hrm) fun k hk hpk => hw.eq_of_id hk hj ?_
    obtain ⟨a, ha, -, ham⟩ := h.registry.tracked k hk
    rw [hid, ← registered_of_member h.registry hp ha hr (ham ▸ hpk) hrm]
  have hmem : ∀ k, k ∈ (s.table.childExited pid group status).1.jobs ↔ _ := fun k => mem_childExited hw ho
  refine ⟨⟨fun k hk => ?_, h.registry.launched, fun r' hr' => ?_, h.registry.numbers, h.registry.groups⟩, ?_, ?_, ?_⟩
  · rcases (hmem k).1 hk with ⟨hk, -⟩ | ⟨-, rfl⟩
    · exact h.registry.tracked k hk
    · exact h.registry.tracked j hj
  · rw [lastId_childExited]
    exact h.registry.issued r' hr'
  · exact pending_tell n fun g hg => h.pending.visited g (hwork ▸ hg)
  · intro r' hr' hw'
    rw [hnow]
    by_cases heq : r' = r
    · subst heq
      refine ⟨fun k hk hkid => ?_, fun hn => ?_⟩
      · rcases (hmem k).1 hk with ⟨hk, hne⟩ | ⟨hmore, rfl⟩
        · exact absurd (hkid.trans hid.symm) hne
        · exact ⟨by rw [hlive]; rfl, Nat.sub_pos_of_lt hmore⟩
      · by_contra hne
        have hmore : 1 < j.live := by omega
        exact hn _ ((hmem _).2 (Or.inr ⟨hmore, rfl⟩)) hid
    · obtain ⟨hcount', hgone'⟩ := h.counted r' hr' hw'
      rw [due, howed r' hr', if_neg heq, Nat.add_zero] at hcount' hgone'
      have hne : ∀ k : Job, k.id = r'.1 → k.id ≠ j.id := fun k hk hkj =>
        heq (h.registry.numbers r' hr' r hr (hk.symm.trans (hkj.trans hid)))
      refine ⟨fun k hk hkid => ?_, fun hn => hgone' fun k hk hkid => ?_⟩
      · rcases (hmem k).1 hk with ⟨hk, -⟩ | ⟨-, rfl⟩
        · exact hcount' k hk hkid
        · exact absurd rfl (hne _ hkid)
      · exact hn k ((hmem k).2 (Or.inl ⟨hk, hne k hkid⟩)) hkid
  · refine covered_mono h.covered rfl (List.Subset.refl _) (fun _ _ _ => rfl) fun k hk hgk => ⟨k, (hmem k).2 (Or.inl ⟨hk, ?_⟩), rfl, rfl⟩
    intro hkj
    rw [hw.eq_of_id hk hj hkj, ← hjg] at hgk
    exact hx.unvisited _ hgk (hwork ▸ hrw)

/-- A group of which all was collected has no job any more when the collector concludes it. -/
theorem no_job_of_concluded (h : L.Balanced s) (hx : Exclusive es s) (hat : s.collector = .concluding g work) {j : Job}
    (hj : j ∈ s.table.jobs) : j.pgid ≠ g := by
  intro hg
  obtain ⟨a, ha, hag, -⟩ := h.registry.tracked j hj
  have hin : a.pgid ∈ s.collector.work := by rw [hat, hag, hg]; exact List.mem_cons_self
  obtain ⟨hlive, hpos⟩ := (h.counted _ ha (not_waited hx hin)).1 j hj rfl
  rw [due, h.pending.concluded g work hat a (h.registry.launched _ ha) (hag.trans hg), hat] at hlive
  exact Nat.ne_of_gt hpos hlive

end Ledger.Balanced

end JobShell
