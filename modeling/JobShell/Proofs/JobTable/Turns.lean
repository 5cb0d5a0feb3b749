import JobShell.Proofs.JobTable.Marks
import Mathlib.Logic.Relation

/-!
# Turns of the table

Whatever an operation does to the table, it does in a few ways, and `Turn` lists them. What every turn keeps, every sequence of
operations keeps.

No turn changes the number, the group or the command of a job, and a job that is new to the table has a number that was never given
before (`Evolves`). A turn leaves the groups of the jobs apart, and no job marked as one that a foreground wait owns (`Tidy`), if it
registers only groups that no job of the table has; inside a turn the one job that is waited for is marked.
-/

namespace JobShell

/-- What of a job stays as long as it is tracked: its number, its group and its command. -/
def Job.identity (j : Job) : JobId × Pid × String := (j.id, j.pgid, j.command)

namespace JobTable

/-- How a foreground wait for a claimed job leaves the table: its group ended, or it stopped, or the wait failed. -/
inductive Closed (id : JobId) (c : Claim) (t : JobTable) : JobTable → Prop
  | finished (status : ExitStatus) : Closed id c t (t.markFinished c.group.pgid status).1
  | stopped (live : Nat) : Closed id c t (t.trackStopped c.group.pgid c.command live []).1
  | failed : Closed id c t (t.restore id c)

/-- One turn of the table. `allowed` says which groups may be registered in which table; between the claim of a job for the
foreground and the end of the wait stand changes of the collector. -/
inductive Turn (allowed : JobTable → Pid → Prop) (t : JobTable) : JobTable → Prop
  | collected (c : Change) : Turn allowed t (t.apply c).1
  | ended (pid group : Pid) (status : ExitStatus) : Turn allowed t (t.childExited pid group status).1
  | finished (pgid : Pid) (status : ExitStatus) : Turn allowed t (t.markFinished pgid status).1
  | suspended (pgid : Pid) (command : String) (live : Nat) (members : List Pid) :
    Turn allowed t (t.trackStopped pgid command live members).1
  | resumed {id : JobId} {t' : JobTable} {n : Notice} (resumed : t.resume? id = some (t', n)) : Turn allowed t t'
  | added {pgid : Pid} (allows : allowed t pgid) (command : String) (background : Bool) (live : Nat) (members : List Pid) :
    Turn allowed t (t.insert pgid command background live members).1
  | continued {id : JobId} {t' t'' : JobTable} {c : Claim} (cs : List Change) (claimed : t.claim? id = some (t', c))
    (closed : Closed id c (t'.applyAll cs).1 t'') : Turn allowed t t''

/-- Turns, one after the other. -/
abbrev Turns (allowed : JobTable → Pid → Prop) : JobTable → JobTable → Prop := Relation.ReflTransGen (Turn allowed)

/-- No job of the table has this group. -/
def Untracked (t : JobTable) (pgid : Pid) : Prop := ∀ j ∈ t.jobs, j.pgid ≠ pgid

variable {allowed : JobTable → Pid → Prop} {t t' t'' : JobTable} {id : JobId} {j k : Job} {c : Claim}

/-! ## Numbers, groups and commands -/

/-- The second table came from the first, which was well-formed: a job of it was in the first with the same number, group and
command, or its number was given later. -/
structure Evolves (t t' : JobTable) : Prop where
  wellFormed : t'.WellFormed
  lastId : t.lastId ≤ t'.lastId
  jobs : ∀ j ∈ t'.jobs, (∃ k ∈ t.jobs, k.identity = j.identity) ∨ t.lastId < j.id

namespace Evolves

/-- A well-formed table comes from itself. -/
theorem refl (h : t.WellFormed) : Evolves t t :=
  ⟨h, Nat.le_refl _, fun j hj => Or.inl ⟨j, hj, rfl⟩⟩

/-- What comes from a table that came from a third comes from the third. -/
theorem trans (h : Evolves t t') (h' : Evolves t' t'') : Evolves t t'' := by
  refine ⟨h'.wellFormed, Nat.le_trans h.lastId h'.lastId, fun j hj => ?_⟩
  rcases h'.jobs j hj with ⟨k, hk, he⟩ | hn
  · have hid : k.id = j.id := congrArg Prod.fst he
    rcases h.jobs k hk with ⟨i, hi, he'⟩ | hn
    · exact Or.inl ⟨i, hi, he'.trans he⟩
    · exact Or.inr (hid ▸ hn)
  · exact Or.inr (Nat.lt_of_le_of_lt h.lastId hn)

/-- A table with fewer jobs of the same numbers, groups and commands comes from the one with more. -/
theorem of_sublist (hw : t'.WellFormed) (hl : t'.lastId = t.lastId)
    (hs : (t'.jobs.map Job.identity).Sublist (t.jobs.map Job.identity)) : Evolves t t' := by
  refine ⟨hw, Nat.le_of_eq hl.symm, fun j hj => Or.inl ?_⟩
  obtain ⟨k, hk, he⟩ := List.mem_map.1 (hs.subset (List.mem_map_of_mem hj))
  exact ⟨k, hk, he⟩

/-- A change of one job that leaves its number, group and command, and does not end it. -/
theorem modify {change : Job → Job} (h : t.WellFormed) (hi : ∀ j, (change j).identity = j.identity)
    (ht : ∀ j, j.isTracked = true → (change j).isTracked = true) : Evolves t (t.modify id change) :=
  of_sublist (h.modify (fun j => congrArg Prod.fst (hi j)) ht) rfl (map_modify_sublist _ hi)

/-- A registration gives a number that was never given before. -/
theorem insert (h : t.WellFormed) (pgid : Pid) (command : String) (background : Bool) (live : Nat) (members : List Pid) :
    Evolves t (t.insert pgid command background live members).1 := by
  refine ⟨h.insert .., Nat.le_succ _, fun j hj => ?_⟩
  rcases mem_insert.1 hj with hj | rfl
  · exact Or.inl ⟨j, hj, rfl⟩
  · exact Or.inr (Nat.lt_succ_self _)

/-- A change of the collector. -/
theorem apply (h : t.WellFormed) (c : Change) : Evolves t (t.apply c).1 :=
  of_sublist (h.apply c) (lastId_apply c) (map_apply_sublist _ (fun _ _ => rfl) (fun _ _ => rfl) c)

/-- Changes of the collector, one after the other. -/
theorem applyAll (h : t.WellFormed) (cs : List Change) : Evolves t (t.applyAll cs).1 := by
  induction cs generalizing t with
  | nil => exact refl h
  | cons c cs ih => exact (apply h c).trans (ih (h.apply c))

/-- The end of the job of a group. -/
theorem markFinished (h : t.WellFormed) (pgid : Pid) (status : ExitStatus) : Evolves t (t.markFinished pgid status).1 :=
  of_sublist (h.markFinished pgid status) lastId_markFinished (map_markFinished_sublist _ pgid status)

/-- A group that stops in the foreground: its job is changed, or it is registered first. -/
theorem trackStopped (h : t.WellFormed) (pgid : Pid) (command : String) (live : Nat) (members : List Pid) :
    Evolves t (t.trackStopped pgid command live members).1 := by
  cases ho : t.ofGroup? pgid with
  | some j =>
    rw [trackStopped_of_some ho]
    exact modify h (fun _ => rfl) fun _ _ => rfl
  | none =>
    rw [trackStopped_of_none ho]
    exact (insert h ..).trans (modify (h.insert ..) (fun _ => rfl) fun _ _ => rfl)

/-- A claim, which remembers a state in which the job had not ended: no job of the table has. -/
theorem claim (h : t.WellFormed) (hc : t.claim? id = some (t', c)) : Evolves t t' ∧ c.state ≠ .done := by
  obtain ⟨j, hj, rfl, rfl⟩ := claim?_some hc
  refine ⟨modify h (fun _ => rfl) fun _ _ => rfl, ?_⟩
  exact bne_iff_ne.1 (h.tracked j ((find?_eq_some_iff h).1 hj).1)

/-- The end of a foreground wait for a job that had not ended when it was claimed. -/
theorem close (h : t.WellFormed) (hc : c.state ≠ .done) (hcl : Closed id c t t') : Evolves t t' := by
  cases hcl with
  | finished status => exact markFinished h _ status
  | stopped live => exact trackStopped h _ _ live []
  | failed => exact modify h (fun _ => rfl) fun _ _ => bne_iff_ne.2 hc

/-- A turn of a well-formed table. -/
theorem turn (h : t.WellFormed) (ht : Turn allowed t t') : Evolves t t' := by
  cases ht with
  | collected c => exact apply h c
  | ended pid group status =>
    exact of_sublist (h.childExited pid group status) lastId_childExited (map_childExited_sublist _ (fun _ _ => rfl) _ _ _)
  | finished pgid status => exact markFinished h pgid status
  | suspended pgid command live members => exact trackStopped h pgid command live members
  | resumed resumed =>
    obtain ⟨j, -, rfl, -⟩ := resume?_some resumed
    exact modify h (fun _ => rfl) fun _ _ => rfl
  | added _ command background live members => exact insert h _ command background live members
  | continued cs claimed closed =>
    obtain ⟨hclaimed, hstate⟩ := claim h claimed
    have hcollected := applyAll hclaimed.wellFormed cs
    exact (hclaimed.trans hcollected).trans (close hcollected.wellFormed hstate closed)

/-- Turns of a well-formed table, one after the other. -/
theorem turns (h : t.WellFormed) (ht : Turns allowed t t') : Evolves t t' := by
  induction ht with
  | refl => exact refl h
  | tail _ next ih => exact ih.trans (turn ih.wellFormed next)

end Evolves

/-! ## Groups and marks -/

/-- The groups of the jobs are apart, and the only job that may be marked as waited for is the one of this number. -/
structure Tidy (owner : Option JobId) (t : JobTable) : Prop where
  wellFormed : t.WellFormed
  groups : (t.jobs.map (·.pgid)).Nodup
  waited : ∀ j ∈ t.jobs, j.waited = true → owner = some j.id

namespace Tidy

variable {owner : Option JobId}

/-- The table of a fresh shell is tidy. -/
theorem start : Tidy none {} := ⟨wellFormed_empty, List.nodup_nil, nofun⟩

/-- A job of a tidy table is known by its group. -/
theorem eq_of_pgid (h : Tidy owner t) (hj : j ∈ t.jobs) (hk : k ∈ t.jobs) (he : j.pgid = k.pgid) : j = k :=
  List.inj_on_of_nodup_map h.groups hj hk he

/-- A table with fewer jobs of the same numbers, groups and marks is as tidy. -/
theorem of_sublist (h : Tidy owner t) (hw : t'.WellFormed)
    (hs : (t'.jobs.map fun j => (j.id, j.pgid, j.waited)).Sublist (t.jobs.map fun j => (j.id, j.pgid, j.waited))) :
    Tidy owner t' := by
  refine ⟨hw, ?_, fun j hj hwaited => ?_⟩
  · have hg := hs.map fun v => v.2.1
    rw [List.map_map, List.map_map] at hg
    exact h.groups.sublist hg
  · obtain ⟨k, hk, he⟩ := List.mem_map.1 (hs.subset (List.mem_map_of_mem hj))
    obtain ⟨hid, -, hmark⟩ : k.id = j.id ∧ k.pgid = j.pgid ∧ k.waited = j.waited := by simpa using he
    rw [← hid]
    exact h.waited k hk (hmark.trans hwaited)

/-- A change of the collector. -/
theorem apply (h : Tidy owner t) (c : Change) : Tidy owner (t.apply c).1 :=
  h.of_sublist (h.wellFormed.apply c) (map_apply_sublist _ (fun _ _ => rfl) (fun _ _ => rfl) c)

/-- A registration of a group that no job has. -/
theorem insert (h : Tidy owner t) {pgid : Pid} (hu : t.Untracked pgid) (command : String) (background : Bool) (live : Nat)
    (members : List Pid) : Tidy owner (t.insert pgid command background live members).1 := by
  refine ⟨h.wellFormed.insert .., ?_, fun j hj hwaited => ?_⟩
  · have hnew : pgid ∉ t.jobs.map (·.pgid) := fun hm => by
      obtain ⟨j, hj, he⟩ := List.mem_map.1 hm
      exact hu j hj he
    simp only [JobTable.insert, List.map_append, List.map_cons, List.map_nil]
    exact List.nodup_append.2 ⟨h.groups, List.nodup_singleton _, by
      rintro a ha b hb rfl
      exact hnew (List.mem_singleton.1 hb ▸ ha)⟩
  · rcases mem_insert.1 hj with hj | rfl
    · exact h.waited j hj hwaited
    · cases hwaited

/-- Where no job of this group is left marked, the mark is gone with the wait. -/
theorem released {pgid : Pid} (h : Tidy (some id) t) (hp : ∀ j ∈ t.jobs, j.id = id → j.pgid = pgid) (hw : t'.WellFormed)
    (hg : (t'.jobs.map (·.pgid)).Nodup)
    (hj : ∀ k ∈ t'.jobs, k.waited = true → k ∈ t.jobs ∧ k.pgid ≠ pgid) : Tidy none t' := by
  refine ⟨hw, hg, fun k hk hwaited => ?_⟩
  obtain ⟨hk, hne⟩ := hj k hk hwaited
  have hid : id = k.id := Option.some.inj (h.waited k hk hwaited)
  exact absurd (hp k hk hid.symm) hne

/-- The end of the job of a group. -/
theorem markFinished (h : Tidy owner t) (pgid : Pid) (status : ExitStatus) : Tidy owner (t.markFinished pgid status).1 :=
  h.of_sublist (h.wellFormed.markFinished pgid status) (map_markFinished_sublist _ pgid status)

/-- No job of a group is left when its job ends. -/
theorem pgid_of_markFinished (h : Tidy owner t) {pgid : Pid} {status : ExitStatus}
    (hk : k ∈ (t.markFinished pgid status).1.jobs) : k ∈ t.jobs ∧ k.pgid ≠ pgid := by
  cases ho : t.ofGroup? pgid with
  | none =>
    rw [markFinished_of_none h.wellFormed ho] at hk
    exact ⟨hk, (ofGroup?_eq_none_iff h.wellFormed).1 ho k hk⟩
  | some j =>
    obtain ⟨hj, hg⟩ := ofGroup?_some ho
    rw [markFinished_of_some ho] at hk
    obtain ⟨hk, hne⟩ := (mem_finish h.wellFormed status).1 hk
    refine ⟨hk, fun he => hne ?_⟩
    rw [h.eq_of_pgid hk hj (he.trans hg.symm)]

/-- A group that stops in the foreground leaves the groups apart. -/
theorem groups_trackStopped (h : Tidy owner t) (pgid : Pid) (command : String) (live : Nat) (members : List Pid) :
    ((t.trackStopped pgid command live members).1.jobs.map (·.pgid)).Nodup := by
  cases ho : t.ofGroup? pgid with
  | some j =>
    rw [trackStopped_of_some ho]
    show ((t.modify j.id _).jobs.map (·.pgid)).Nodup
    rw [map_modify]
    · exact h.groups
    · exact fun _ => rfl
  | none =>
    have hu : t.Untracked pgid := (ofGroup?_eq_none_iff h.wellFormed).1 ho
    rw [trackStopped_of_none ho]
    show ((JobTable.modify _ _ _).jobs.map (·.pgid)).Nodup
    rw [map_modify]
    · exact (h.insert hu command false live members).groups
    · exact fun _ => rfl

/-- A job that is still marked when a group stopped was so before, and is of another group. -/
theorem waited_of_trackStopped (h : Tidy owner t) {pgid : Pid} {command : String} {live : Nat} {members : List Pid}
    (hk : k ∈ (t.trackStopped pgid command live members).1.jobs) (hwaited : k.waited = true) :
    k ∈ t.jobs ∧ k.pgid ≠ pgid := by
  cases ho : t.ofGroup? pgid with
  | some j =>
    obtain ⟨hj, hg⟩ := ofGroup?_some ho
    rcases (mem_trackStopped_of_some h.wellFormed ho).1 hk with ⟨hk, hne⟩ | rfl
    · refine ⟨hk, fun he => hne ?_⟩
      rw [h.eq_of_pgid hk hj (he.trans hg.symm)]
    · cases hwaited
  | none =>
    rcases (mem_trackStopped_of_none h.wellFormed ho).1 hk with hk | rfl
    · exact ⟨hk, (ofGroup?_eq_none_iff h.wellFormed).1 ho k hk⟩
    · cases hwaited

/-- The end of a foreground wait takes the mark from the job that was claimed. -/
theorem close (h : Tidy (some id) t) (hp : ∀ j ∈ t.jobs, j.id = id → j.pgid = c.group.pgid) (hc : c.state ≠ .done)
    (hcl : Closed id c t t') : Tidy none t' := by
  cases hcl with
  | finished status =>
    exact h.released hp (h.wellFormed.markFinished ..) (h.markFinished _ status).groups fun k hk _ => h.pgid_of_markFinished hk
  | stopped live =>
    exact h.released hp (h.wellFormed.trackStopped ..) (h.groups_trackStopped ..) fun k hk => h.waited_of_trackStopped hk
  | failed =>
    refine ⟨h.wellFormed.restore hc id, ?_, fun k hk hwaited => ?_⟩
    · rw [restore, map_modify]
      · exact h.groups
      · exact fun _ => rfl
    · obtain ⟨i, hi, rfl⟩ := List.mem_map.1 hk
      -- The claimed job is unmarked, and no other was marked.
      by_cases he : i.id = id
      · simp [he] at hwaited
      · rw [if_neg (by simpa using he)] at hwaited
        exact absurd (Option.some.inj (h.waited i hi hwaited)).symm he

/-- A claim marks one job, and remembers its group. -/
theorem claim (h : Tidy none t) (hc : t.claim? id = some (t', c)) :
    Tidy (some id) t' ∧ ∀ j ∈ t'.jobs, j.id = id → j.pgid = c.group.pgid := by
  have hw := (Evolves.claim h.wellFormed hc).1.wellFormed
  obtain ⟨j, hj, rfl, rfl⟩ := claim?_some hc
  obtain ⟨hmem, rfl⟩ := (find?_eq_some_iff h.wellFormed).1 hj
  refine ⟨⟨hw, ?_, fun k hk hwaited => ?_⟩, fun k hk hid => ?_⟩
  · rw [map_modify]
    · exact h.groups
    · exact fun _ => rfl
  · rcases (mem_modify h.wellFormed hmem).1 hk with ⟨hk, -⟩ | rfl
    · cases h.waited k hk hwaited
    · rfl
  · rcases (mem_modify h.wellFormed hmem).1 hk with ⟨-, hne⟩ | rfl
    · exact absurd hid hne
    · rfl

/-- Changes of the collector leave a marked job marked, and of the group that it is. -/
theorem applyAll (h : Tidy owner t) {pgid : Pid} (hp : ∀ j ∈ t.jobs, j.id = id → j.pgid = pgid) (cs : List Change) :
    Tidy owner (t.applyAll cs).1 ∧ ∀ j ∈ (t.applyAll cs).1.jobs, j.id = id → j.pgid = pgid := by
  induction cs generalizing t with
  | nil => exact ⟨h, hp⟩
  | cons c cs ih =>
    refine ih (h.apply c) fun j hj hid => ?_
    have hs : ((t.apply c).1.jobs.map fun j => (j.id, j.pgid)).Sublist (t.jobs.map fun j => (j.id, j.pgid)) :=
      map_apply_sublist _ (fun _ _ => rfl) (fun _ _ => rfl) c
    obtain ⟨k, hk, he⟩ := List.mem_map.1 (hs.subset (List.mem_map_of_mem hj))
    obtain ⟨hkid, hkg⟩ := Prod.mk.inj he
    rw [← hkg]
    exact hp k hk (hkid.trans hid)

/-- A turn that registers only groups without a job. -/
theorem turn (h : Tidy none t) (ht : Turn Untracked t t') : Tidy none t' := by
  cases ht with
  | collected c => exact h.apply c
  | ended pid group status =>
    exact h.of_sublist (h.wellFormed.childExited ..) (map_childExited_sublist _ (fun _ _ => rfl) pid group status)
  | finished pgid status => exact h.markFinished pgid status
  | suspended pgid command live members =>
    refine ⟨h.wellFormed.trackStopped .., h.groups_trackStopped .., fun k hk hwaited => ?_⟩
    exact h.waited k (h.waited_of_trackStopped hk hwaited).1 hwaited
  | resumed resumed =>
    obtain ⟨j, -, rfl, -⟩ := resume?_some resumed
    exact h.of_sublist (h.wellFormed.modify (fun _ => rfl) fun _ _ => rfl) (map_modify_sublist _ fun _ => rfl)
  | added allows command background live members => exact h.insert allows command background live members
  | continued cs claimed closed =>
    obtain ⟨marked, hp⟩ := h.claim claimed
    obtain ⟨collected, hp⟩ := marked.applyAll hp cs
    exact collected.close hp (Evolves.claim h.wellFormed claimed).2 closed

/-- Turns that register only groups without a job, one after the other. -/
theorem turns (h : Tidy none t) (ht : Turns Untracked t t') : Tidy none t' := by
  induction ht with
  | refl => exact h
  | tail _ next ih => exact ih.turn next

/-- Between two turns every group may be collected in the background. -/
theorem backgroundGroups (h : Tidy none t) : t.backgroundGroups = t.list.map (·.pgid) := by
  have hall : t.jobs.filter (fun j => !j.waited && j.isTracked) = t.jobs := by
    refine List.filter_eq_self.2 fun j hj => ?_
    have hw : j.waited = false := by
      cases hm : j.waited with
      | false => rfl
      | true => cases h.waited j hj hm
    simp [hw, h.wellFormed.tracked j hj]
  rw [JobTable.backgroundGroups, list, sweep_of_tracked h.wellFormed.tracked, hall, List.map_map]
  rfl

end Tidy

end JobTable

end JobShell
