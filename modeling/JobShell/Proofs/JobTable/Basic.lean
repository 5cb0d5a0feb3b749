import JobShell.JobTable
import Mathlib.Data.List.Nodup

/-!
# The lookups and the changes of the job table

Statements about one lookup or one change at a time. A table is well-formed (`WellFormed`) when its jobs stand in the order of
their numbers, every number was issued, and no job in it has ended. In such a table a lookup finds the one job there is, and a
change is told by which jobs the table holds after it: all jobs but one as they were, and that one changed or gone.
-/

namespace JobShell

namespace JobTable

/-- The jobs stand in the order of their numbers, their numbers were issued, and none of them has ended. -/
structure WellFormed (t : JobTable) : Prop where
  ascending : t.jobs.Pairwise fun j k => j.id < k.id
  issued : ∀ j ∈ t.jobs, 0 < j.id ∧ j.id ≤ t.lastId
  tracked : ∀ j ∈ t.jobs, j.isTracked = true

/-- The table of a fresh shell is well-formed. -/
theorem wellFormed_empty : WellFormed {} :=
  ⟨List.Pairwise.nil, by simp, by simp⟩

variable {t : JobTable} {id : JobId} {j k : Job} {pid group : Pid}

/-- Tables with the same jobs and the same last number are the same. -/
theorem eq_of_jobs {t' : JobTable} (hl : t.lastId = t'.lastId) (hj : t.jobs = t'.jobs) : t = t' := by
  cases t
  cases t'
  exact congr (congrArg JobTable.mk hl) hj

/-- A job of a well-formed table is known by its number. -/
theorem WellFormed.eq_of_id (h : t.WellFormed) (hj : j ∈ t.jobs) (hk : k ∈ t.jobs) (he : j.id = k.id) : j = k := by
  have hn : (t.jobs.map (·.id)).Nodup := by
    rw [List.Nodup, List.pairwise_map]
    exact h.ascending.imp fun hlt => Nat.ne_of_lt hlt
  exact List.inj_on_of_nodup_map hn hj hk he

/-- A table with fewer jobs, of the same numbers and none of them ended, is well-formed too. -/
theorem WellFormed.of_sublist {t' : JobTable} (h : t.WellFormed) (hs : (t'.jobs.map (·.id)).Sublist (t.jobs.map (·.id)))
    (hl : t'.lastId = t.lastId) (ht : ∀ j ∈ t'.jobs, j.isTracked = true) : t'.WellFormed := by
  refine ⟨?_, ?_, ht⟩
  · exact List.pairwise_map.1 ((List.pairwise_map.2 h.ascending).sublist hs)
  · intro j hj
    obtain ⟨k, hk, he⟩ := List.mem_map.1 (hs.subset (List.mem_map_of_mem hj))
    rw [hl, ← he]
    exact h.issued k hk

/-! ## Lookups -/

/-- A number finds the job that has it. -/
theorem find?_eq_some_iff (h : t.WellFormed) : t.find? id = some j ↔ j ∈ t.jobs ∧ j.id = id := by
  constructor
  · intro hf
    exact ⟨List.mem_of_find?_eq_some hf, by simpa using List.find?_some hf⟩
  · rintro ⟨hj, rfl⟩
    cases hf : t.find? j.id with
    | none =>
      have := List.find?_eq_none.1 hf j hj
      simp at this
    | some k =>
      have hk : k.id = j.id := by simpa using List.find?_some hf
      rw [h.eq_of_id (List.mem_of_find?_eq_some hf) hj hk]

/-- A number finds nothing when no job has it. -/
theorem find?_eq_none_iff : t.find? id = none ↔ ∀ j ∈ t.jobs, j.id ≠ id := by
  simp [find?]

/-- A number finds something when some job has it. -/
theorem find?_isSome_iff : (t.find? id).isSome ↔ ∃ j ∈ t.jobs, j.id = id := by
  simp [find?]

/-- The job that a group finds. -/
theorem ofGroup?_some (h : t.ofGroup? group = some j) : j ∈ t.jobs ∧ j.pgid = group := by
  refine ⟨List.mem_of_find?_eq_some h, ?_⟩
  have := List.find?_some h
  simp only [Bool.and_eq_true, beq_iff_eq] at this
  exact this.1

/-- A group finds nothing when no job has it. -/
theorem ofGroup?_eq_none_iff (h : t.WellFormed) : t.ofGroup? group = none ↔ ∀ j ∈ t.jobs, j.pgid ≠ group := by
  simp only [ofGroup?, List.find?_eq_none, Bool.and_eq_true, beq_iff_eq, not_and]
  exact ⟨fun hn j hj hg => hn j hj hg (h.tracked j hj), fun hn j hj hg => absurd hg (hn j hj)⟩

/-- The job that a process belongs to has it as a member, or has its group. -/
theorem ownerOf?_some (h : t.ownerOf? pid group = some j) : j ∈ t.jobs ∧ (pid ∈ j.members ∨ j.pgid = group) := by
  rcases Option.or_eq_some_iff.1 h with hf | ⟨-, hf⟩
  · have := List.find?_some hf
    simp only [Bool.and_eq_true, List.contains_iff_mem] at this
    exact ⟨List.mem_of_find?_eq_some hf, Or.inl this.2⟩
  · have := List.find?_some hf
    simp only [Bool.and_eq_true, beq_iff_eq] at this
    exact ⟨List.mem_of_find?_eq_some hf, Or.inr this.2⟩

/-- A process belongs to the one job that has it as a member, whatever its group is said to be. -/
theorem ownerOf?_of_member (h : t.WellFormed) (hj : j ∈ t.jobs) (hp : pid ∈ j.members)
    (hu : ∀ k ∈ t.jobs, pid ∈ k.members → k = j) : t.ownerOf? pid group = some j := by
  have hf : t.jobs.find? (fun j => j.isTracked && j.members.contains pid) = some j := by
    cases hf : t.jobs.find? (fun j => j.isTracked && j.members.contains pid) with
    | none =>
      have := List.find?_eq_none.1 hf j hj
      simp [h.tracked j hj, hp] at this
    | some k =>
      have := List.find?_some hf
      simp only [Bool.and_eq_true, List.contains_iff_mem] at this
      rw [hu k (List.mem_of_find?_eq_some hf) this.2]
  rw [ownerOf?, hf, Option.some_or]

/-- A process that is no member belongs to no job when no job has its group. -/
theorem ownerOf?_eq_none (hm : ∀ j ∈ t.jobs, pid ∉ j.members) (hg : ∀ j ∈ t.jobs, j.pgid ≠ group) :
    t.ownerOf? pid group = none := by
  simp only [ownerOf?, Option.or_eq_none_iff, List.find?_eq_none, Bool.and_eq_true, List.contains_iff_mem, beq_iff_eq,
    not_and]
  exact ⟨fun j hj _ => hm j hj, fun j hj _ => hg j hj⟩

/-- The groups that may be collected are those of the jobs that no foreground wait owns. -/
theorem mem_backgroundGroups (h : t.WellFormed) : group ∈ t.backgroundGroups ↔ ∃ j ∈ t.jobs, j.waited = false ∧ j.pgid = group := by
  simp only [backgroundGroups, List.mem_map, List.mem_filter, Bool.and_eq_true, Bool.not_eq_true']
  constructor
  · rintro ⟨j, ⟨hj, hw, -⟩, hg⟩
    exact ⟨j, hj, hw, hg⟩
  · rintro ⟨j, hj, hw, hg⟩
    exact ⟨j, ⟨hj, hw, h.tracked j hj⟩, hg⟩

/-! ## Single changes -/

/-- A view that the change of a job does not touch is the same on every job after it. -/
theorem map_modify {α : Type} {change : Job → Job} (g : Job → α) (hg : ∀ j, g (change j) = g j) :
    (t.modify id change).jobs.map g = t.jobs.map g := by
  simp only [modify, List.map_map]
  refine List.map_congr_left fun j _ => ?_
  simp only [Function.comp_apply]
  split
  · exact hg j
  · rfl

/-- A table after the change of a job shows what it showed, where the change does not show. -/
theorem map_modify_sublist {α : Type} {change : Job → Job} (g : Job → α) (hg : ∀ j, g (change j) = g j) :
    ((t.modify id change).jobs.map g).Sublist (t.jobs.map g) := by
  rw [map_modify g hg]

/-- Leaving out the ended jobs of a table without any changes nothing. -/
theorem sweep_of_tracked (h : ∀ j ∈ t.jobs, j.isTracked = true) : t.sweep = t := by
  simp only [sweep, List.filter_eq_self.2 h]

/-- The jobs after one of them was changed. -/
theorem mem_modify {change : Job → Job} (h : t.WellFormed) (hj : j ∈ t.jobs) :
    k ∈ (t.modify j.id change).jobs ↔ (k ∈ t.jobs ∧ k.id ≠ j.id) ∨ k = change j := by
  simp only [modify, List.mem_map, beq_iff_eq]
  constructor
  · rintro ⟨i, hi, rfl⟩
    by_cases he : i.id = j.id
    · right
      rw [if_pos he, h.eq_of_id hi hj he]
    · left
      rw [if_neg he]
      exact ⟨hi, he⟩
  · rintro (⟨hk, he⟩ | rfl)
    · exact ⟨k, hk, if_neg he⟩
    · exact ⟨j, hj, if_pos rfl⟩

/-- A change that keeps numbers and ends no job keeps a table well-formed. -/
theorem WellFormed.modify {change : Job → Job} (h : t.WellFormed) (hid : ∀ j, (change j).id = j.id)
    (ht : ∀ j, j.isTracked = true → (change j).isTracked = true) : (t.modify id change).WellFormed := by
  refine h.of_sublist (by rw [map_modify _ hid]) rfl ?_
  intro j hj
  simp only [JobTable.modify, List.mem_map] at hj
  obtain ⟨k, hk, rfl⟩ := hj
  split
  · exact ht k (h.tracked k hk)
  · exact h.tracked k hk

/-- Ending a job takes the jobs of its number out of the table, and the ended ones with them. -/
theorem finish_jobs (status : ExitStatus) :
    (t.finish j status).1.jobs = t.jobs.filter fun k => k.id != j.id && k.isTracked := by
  simp only [finish, sweep, modify, List.filter_map]
  rw [List.map_congr_left (g := id), List.map_id]
  · refine List.filter_congr fun k _ => ?_
    by_cases he : k.id = j.id <;> simp [he, Job.finish, Job.isTracked]
  · intro k hk
    by_cases he : k.id = j.id
    · simp [he, Job.finish, Job.isTracked] at hk
    · simp [he]

/-- The jobs after one of them ended. -/
theorem mem_finish (h : t.WellFormed) (status : ExitStatus) :
    k ∈ (t.finish j status).1.jobs ↔ k ∈ t.jobs ∧ k.id ≠ j.id := by
  rw [finish_jobs, List.mem_filter]
  simp only [Bool.and_eq_true, bne_iff_ne, ne_eq]
  exact ⟨fun hk => ⟨hk.1, hk.2.1⟩, fun hk => ⟨hk.1, hk.2, h.tracked k hk.1⟩⟩

/-- A table in which a job ended is well-formed. -/
theorem WellFormed.finish (h : t.WellFormed) (status : ExitStatus) : (t.finish j status).1.WellFormed := by
  refine h.of_sublist ?_ rfl fun k hk => ?_
  · rw [finish_jobs]
    exact List.filter_sublist.map _
  · exact h.tracked k ((mem_finish h status).1 hk).1

/-- The jobs after a registration. -/
theorem mem_insert {pgid : Pid} {command : String} {background : Bool} {live : Nat} {members : List Pid} :
    k ∈ (t.insert pgid command background live members).1.jobs ↔
      k ∈ t.jobs ∨ k = { id := t.lastId + 1, pgid, command, background, live, members } := by
  simp [insert]

/-- A table with one more job is well-formed. -/
theorem WellFormed.insert (h : t.WellFormed) (pgid : Pid) (command : String) (background : Bool) (live : Nat)
    (members : List Pid) : (t.insert pgid command background live members).1.WellFormed := by
  refine ⟨?_, ?_, ?_⟩
  · simp only [JobTable.insert, List.pairwise_append, List.pairwise_cons, List.not_mem_nil, false_implies, implies_true,
      List.Pairwise.nil, and_self, List.mem_singleton, forall_eq, true_and]
    exact ⟨h.ascending, fun j hj => Nat.lt_succ_of_le (h.issued j hj).2⟩
  · intro j hj
    rcases mem_insert.1 hj with hj | rfl
    · exact ⟨(h.issued j hj).1, Nat.le_succ_of_le (h.issued j hj).2⟩
    · exact ⟨Nat.succ_pos _, Nat.le_refl _⟩
  · intro j hj
    rcases mem_insert.1 hj with hj | rfl
    · exact h.tracked j hj
    · rfl

end JobTable

end JobShell
