import JobShell.Proofs.JobTable.Operations
import Mathlib.Data.List.Find

/-!
# Marked jobs

The collector pays no attention to the state of a job that has not ended, nor to whether it is in the background, except for what
it says of the end. So a job that is given another state and place beforehand (`JobTable.mark`) is treated as it would have been
(`applyAll_mark`): the same jobs are left afterwards, and only the state of the marked one, and the notice of its end, may
differ.
-/

namespace JobShell

/-- The notice tells of an end. -/
def Notice.isEnd : Notice → Bool
  | .finished .. => true
  | _ => false

/-- The job in another state, and in the background or not as `β` says. -/
def Job.mark (β : Bool → Bool) (σ : JobState) (j : Job) : Job := { j with background := β j.background, state := σ }

namespace JobTable

/-- The table with the job of this number marked. -/
def mark (t : JobTable) (id : JobId) (β : Bool → Bool) (σ : JobState) : JobTable := t.modify id (Job.mark β σ)

/-- The table in which the job of this number goes on in the background. -/
def resumed (t : JobTable) (id : JobId) : JobTable := t.mark id (fun _ => true) .running

/-- The table with the job of this number in another state. -/
def withState (t : JobTable) (id : JobId) (σ : JobState) : JobTable := t.mark id (fun b => b) σ

/-- The operation does not look at the mark: it leaves the same jobs, the marked one in some state, and announces the same end,
when the mark leaves jobs in their place or is on a job that stays. -/
def Overlooks (t : JobTable) (id : JobId) (β : Bool → Bool) (σ : JobState) (op : JobTable → JobTable × Option Notice) :
    Prop :=
  ∃ τ, τ ≠ .done ∧ (op (t.mark id β σ)).1 = (op t).1.mark id β τ ∧
    ((∀ b, β b = b) ∨ (∃ j ∈ (op t).1.jobs, j.id = id) →
      (op (t.mark id β σ)).2.toList.filter Notice.isEnd = (op t).2.toList.filter Notice.isEnd)

end JobTable

namespace MarksAux

open JobTable

variable {t : JobTable} {id : JobId} {β : Bool → Bool} {σ τ : JobState} {j : Job} {pid group : Pid} {status : ExitStatus}

/-- What marking the job of a number does to each job. -/
def markAt (id : JobId) (β : Bool → Bool) (σ : JobState) (j : Job) : Job := if j.id == id then j.mark β σ else j

/-- A marked job keeps its number. -/
theorem markAt_id : (markAt id β σ j).id = j.id := by
  rw [markAt]
  split <;> rfl

/-- A marked job keeps its group. -/
theorem markAt_pgid : (markAt id β σ j).pgid = j.pgid := by
  rw [markAt]
  split <;> rfl

/-- A marked job keeps its members. -/
theorem markAt_members : (markAt id β σ j).members = j.members := by
  rw [markAt]
  split <;> rfl

/-- A marked job keeps its count. -/
theorem markAt_live : (markAt id β σ j).live = j.live := by
  rw [markAt]
  split <;> rfl

/-- A marked job has not ended, if it had not before. -/
theorem markAt_isTracked (hσ : σ ≠ .done) (h : j.isTracked = true) : (markAt id β σ j).isTracked = true := by
  rw [markAt]
  split
  · exact bne_iff_ne.2 hσ
  · exact h

/-- A job of another number is not marked. -/
theorem markAt_of_ne (h : j.id ≠ id) : markAt id β σ j = j := by
  rw [markAt, if_neg (by simpa using h)]

/-- Marks that leave jobs in their place leave the notices of their ends. -/
theorem endNotice_markAt (hβ : j.id = id → β j.background = j.background) :
    (markAt id β σ j).endNotice status = j.endNotice status := by
  rw [markAt]
  split
  · rename_i he
    simp only [Job.endNotice, Job.mark, hβ (by simpa using he)]
  · rfl

/-- The jobs of a marked table. -/
theorem mark_jobs : (t.mark id β σ).jobs = t.jobs.map (markAt id β σ) := rfl

/-- Where a mark does not show, the marked table is searched as before. -/
theorem find?_mark {q : Job → Bool} (hq : ∀ j ∈ t.jobs, q (markAt id β σ j) = q j) :
    (t.mark id β σ).jobs.find? q = (t.jobs.find? q).map (markAt id β σ) := by
  rw [mark_jobs, List.find?_map]
  exact congrArg _ (List.find?_congr hq)

/-- A marked table is well-formed. -/
theorem wellFormed_mark (h : t.WellFormed) (hσ : σ ≠ .done) : (t.mark id β σ).WellFormed :=
  h.modify (fun _ => rfl) fun _ _ => bne_iff_ne.2 hσ

/-- The job of a group, in a marked table. -/
theorem ofGroup?_mark (h : t.WellFormed) (hσ : σ ≠ .done) :
    (t.mark id β σ).ofGroup? group = (t.ofGroup? group).map (markAt id β σ) := by
  refine find?_mark fun j hj => ?_
  rw [markAt_pgid, markAt_isTracked hσ (h.tracked j hj), h.tracked j hj]

/-- The job that a process belongs to, in a marked table. -/
theorem ownerOf?_mark (h : t.WellFormed) (hσ : σ ≠ .done) :
    (t.mark id β σ).ownerOf? pid group = (t.ownerOf? pid group).map (markAt id β σ) := by
  rw [ownerOf?, ownerOf?, find?_mark, find?_mark, Option.map_or]
  · intro j hj
    rw [markAt_pgid, markAt_isTracked hσ (h.tracked j hj), h.tracked j hj]
  · intro j hj
    rw [markAt_members, markAt_isTracked hσ (h.tracked j hj), h.tracked j hj]

/-- A change of a job commutes with a mark when it does so on each job. -/
theorem modify_mark {k : JobId} {f : Job → Job}
    (hf : ∀ j, (if j.id == k then f (markAt id β σ j) else markAt id β σ j) = markAt id β τ (if j.id == k then f j else j)) :
    (t.mark id β σ).modify k f = (t.modify k f).mark id β τ := by
  refine eq_of_jobs rfl ?_
  simp only [mark, JobTable.modify, List.map_map]
  refine List.map_congr_left fun j _ => ?_
  have hid : ((markAt id β σ j).id == k) = (j.id == k) := by rw [markAt_id]
  show (if (markAt id β σ j).id == k then f (markAt id β σ j) else markAt id β σ j) = _
  rw [hid, hf j]
  rfl

/-- The marked job moves to another state: the mark is in that state then, and other marks stay. -/
theorem modify_state_mark (k : JobId) :
    (t.mark id β σ).modify k (fun i => { i with state := τ }) =
      (t.modify k fun i => { i with state := τ }).mark id β (if k = id then τ else σ) := by
  refine modify_mark fun j => ?_
  by_cases hj : j.id = k
  · subst hj
    rw [if_pos (beq_self_eq_true _), if_pos (beq_self_eq_true _)]
    by_cases hi : j.id = id <;> simp [markAt, Job.mark, hi]
  · have hne : ¬(j.id == k) = true := by simpa using hj
    rw [if_neg hne, if_neg hne]
    by_cases hk : k = id
    · rw [markAt_of_ne fun he => hj (he.trans hk.symm), markAt_of_ne fun he => hj (he.trans hk.symm)]
    · rw [if_neg hk]

/-- A marked job counts its processes as before. -/
theorem modify_live_mark (k : JobId) :
    (t.mark id β σ).modify k (fun i => { i with live := i.live - 1 }) =
      (t.modify k fun i => { i with live := i.live - 1 }).mark id β σ := by
  refine modify_mark fun j => ?_
  by_cases hj : j.id = k
  · rw [if_pos (by simpa using hj), if_pos (by simpa using hj)]
    by_cases hi : j.id = id <;> simp [markAt, Job.mark, hi]
  · have hne : ¬(j.id == k) = true := by simpa using hj
    rw [if_neg hne, if_neg hne]

/-- A job ends in a marked table as it does in the other. -/
theorem finish_mark (h : t.WellFormed) (hσ : σ ≠ .done) :
    ((t.mark id β σ).finish (markAt id β σ j) status).1 = (t.finish j status).1.mark id β σ := by
  refine eq_of_jobs rfl ?_
  rw [finish_jobs, mark_jobs, mark_jobs, finish_jobs, List.filter_map]
  refine congrArg _ (List.filter_congr fun k hk => ?_)
  rw [Function.comp_apply, markAt_id, markAt_id, markAt_isTracked hσ (h.tracked k hk), h.tracked k hk]

/-- The end of a job is announced as it was, when the mark leaves jobs in their place or is on a job that stays. -/
theorem finish_mark_notice (h : t.WellFormed)
    (hβ : (∀ b, β b = b) ∨ ∃ k ∈ (t.finish j status).1.jobs, k.id = id) :
    (markAt id β σ j).endNotice status = j.endNotice status := by
  refine endNotice_markAt fun hid => ?_
  rcases hβ with hβ | ⟨k, hk, hkid⟩
  · exact hβ _
  · exact absurd (hkid.trans hid.symm) ((mem_finish h status).1 hk).2

/-- A job that stops or goes on is given the new state, marked or not, and no end is announced. -/
theorem overlooks_childMoved (h : t.WellFormed) (hσ : σ ≠ .done) (hτ : τ ≠ .done) :
    t.Overlooks id β σ (·.childMoved pid group τ) := by
  have hnone : ∀ t' : JobTable, (t'.childMoved pid group τ).2.toList.filter Notice.isEnd = [] := by
    intro t'
    rw [childMoved]
    split
    · rfl
    · dsimp only
      split <;> rfl
  have hends := (hnone (t.mark id β σ)).trans (hnone t).symm
  cases ho : t.ownerOf? pid group with
  | none =>
    have ho' : (t.mark id β σ).ownerOf? pid group = none := by rw [ownerOf?_mark h hσ, ho]; rfl
    refine ⟨σ, hσ, ?_, fun _ => hends⟩
    beta_reduce
    rw [childMoved_of_none ho, childMoved_of_none ho']
  | some j =>
    have ho' : (t.mark id β σ).ownerOf? pid group = some (markAt id β σ j) := by rw [ownerOf?_mark h hσ, ho]; rfl
    refine ⟨if j.id = id then τ else σ, ?_, ?_, fun _ => hends⟩
    · split
      · exact hτ
      · exact hσ
    · beta_reduce
      rw [childMoved_of_owner ho, childMoved_of_owner ho', markAt_id, modify_state_mark]

/-- The end of a process counts the same, marked or not. -/
theorem overlooks_childExited (h : t.WellFormed) (hσ : σ ≠ .done) : t.Overlooks id β σ (·.childExited pid group status) := by
  refine ⟨σ, hσ, ?_⟩
  beta_reduce
  cases ho : t.ownerOf? pid group with
  | none =>
    have ho' : (t.mark id β σ).ownerOf? pid group = none := by rw [ownerOf?_mark h hσ, ho]; rfl
    rw [childExited_of_none ho, childExited_of_none ho']
    exact ⟨rfl, fun _ => rfl⟩
  | some j =>
    have ho' : (t.mark id β σ).ownerOf? pid group = some (markAt id β σ j) := by rw [ownerOf?_mark h hσ, ho]; rfl
    by_cases hl : j.live ≤ 1
    · rw [childExited_of_last ho hl, childExited_of_last ho' (by rw [markAt_live]; exact hl)]
      exact ⟨finish_mark h hσ, fun hβ => congrArg (·.toList.filter Notice.isEnd) (finish_mark_notice h hβ)⟩
    · have hmore : 1 < j.live := Nat.lt_of_not_le hl
      rw [childExited_of_more h ho hmore, childExited_of_more (wellFormed_mark h hσ) ho' (by rw [markAt_live]; exact hmore),
        markAt_id, modify_live_mark]
      exact ⟨rfl, fun _ => rfl⟩

/-- The job of a group ends the same, marked or not. -/
theorem overlooks_markFinished (h : t.WellFormed) (hσ : σ ≠ .done) : t.Overlooks id β σ (·.markFinished group status) := by
  refine ⟨σ, hσ, ?_⟩
  beta_reduce
  cases ho : t.ofGroup? group with
  | none =>
    have ho' : (t.mark id β σ).ofGroup? group = none := by rw [ofGroup?_mark h hσ, ho]; rfl
    rw [markFinished_of_none h ho, markFinished_of_none (wellFormed_mark h hσ) ho']
    exact ⟨rfl, fun _ => rfl⟩
  | some j =>
    have ho' : (t.mark id β σ).ofGroup? group = some (markAt id β σ j) := by rw [ofGroup?_mark h hσ, ho]; rfl
    rw [markFinished_of_some ho, markFinished_of_some ho']
    exact ⟨finish_mark h hσ, fun hβ => congrArg (·.toList.filter Notice.isEnd) (finish_mark_notice h hβ)⟩

end MarksAux

namespace JobTable

open MarksAux

variable {t : JobTable} {id : JobId} {β : Bool → Bool} {σ : JobState}

/-- No change of the collector looks at a mark. -/
theorem overlooks_apply (h : t.WellFormed) (hσ : σ ≠ .done) (c : Change) : t.Overlooks id β σ (·.apply c) := by
  cases c with
  | conclusion pgid => exact overlooks_markFinished h hσ
  | report r =>
    rcases r with ⟨groupOf, w⟩
    cases w with
    | stopped => exact overlooks_childMoved h hσ (by decide)
    | continued => exact overlooks_childMoved h hσ (by decide)
    | exited => exact overlooks_childExited h hσ
    | signaled => exact overlooks_childExited h hσ
    | traceEvent | traceCall | stillAlive => exact ⟨σ, hσ, rfl, fun _ => rfl⟩

/-- A change of the collector keeps a table well-formed. -/
theorem WellFormed.apply (h : t.WellFormed) (c : Change) : (t.apply c).1.WellFormed := by
  cases c with
  | conclusion pgid => exact h.markFinished pgid .unknown
  | report r => exact h.childStatus r.groupOf r.status

/-- Where neither the state nor the count of live processes shows, a change of the collector leaves a sublist of what a table
shows. -/
theorem map_apply_sublist {α : Type} (g : Job → α) (hl : ∀ j live, g { j with live } = g j)
    (hs : ∀ j state, g { j with state } = g j) (c : Change) : ((t.apply c).1.jobs.map g).Sublist (t.jobs.map g) := by
  cases c with
  | conclusion pgid => exact map_markFinished_sublist g _ _
  | report r => exact map_childStatus_sublist g hl hs _ _

/-- A change of the collector registers no job. -/
theorem lastId_apply (c : Change) : (t.apply c).1.lastId = t.lastId := by
  cases c with
  | conclusion pgid => exact lastId_markFinished
  | report r => exact lastId_childStatus r.groupOf r.status

/-- A change of the collector adds no job. -/
theorem id_of_apply {c : Change} {k : Job} (hk : k ∈ (t.apply c).1.jobs) : ∃ j ∈ t.jobs, j.id = k.id := by
  have hs : ((t.apply c).1.jobs.map (·.id)).Sublist (t.jobs.map (·.id)) :=
    map_apply_sublist _ (fun _ _ => rfl) (fun _ _ => rfl) c
  obtain ⟨j, hj, he⟩ := List.mem_map.1 (hs.subset (List.mem_map_of_mem hk))
  exact ⟨j, hj, he⟩

/-! ## Runs of changes -/

/-- The first of several changes is made first. -/
theorem applyAll_cons (t : JobTable) (c : Change) (cs : List Change) :
    t.applyAll (c :: cs) = (((t.apply c).1.applyAll cs).1, (t.apply c).2.toList ++ ((t.apply c).1.applyAll cs).2) := rfl

/-- Changes are made in two parts. -/
theorem applyAll_append (t : JobTable) (cs ds : List Change) :
    t.applyAll (cs ++ ds) =
      (((t.applyAll cs).1.applyAll ds).1, (t.applyAll cs).2 ++ ((t.applyAll cs).1.applyAll ds).2) := by
  induction cs generalizing t with
  | nil => rfl
  | cons c cs ih => rw [List.cons_append, applyAll_cons, ih, applyAll_cons, List.append_assoc]

/-- Changes of the collector keep a table well-formed. -/
theorem WellFormed.applyAll (h : t.WellFormed) (cs : List Change) : (t.applyAll cs).1.WellFormed := by
  induction cs generalizing t with
  | nil => exact h
  | cons c cs ih => exact ih (h.apply c)

/-- Changes of the collector add no job. -/
theorem id_of_applyAll {cs : List Change} {k : Job} (hk : k ∈ (t.applyAll cs).1.jobs) : ∃ j ∈ t.jobs, j.id = k.id := by
  induction cs generalizing t with
  | nil => exact ⟨k, hk, rfl⟩
  | cons c cs ih =>
    obtain ⟨i, hi, he⟩ := ih hk
    obtain ⟨j, hj, he'⟩ := id_of_apply hi
    exact ⟨j, hj, he'.trans he⟩

/-- Changes of the collector on a marked table: the same jobs are left, the marked one in some state, and the same ends are
announced, when the mark leaves jobs in their place or is on a job that stays. -/
theorem applyAll_mark (h : t.WellFormed) (hσ : σ ≠ .done) (cs : List Change) :
    ∃ τ, τ ≠ .done ∧ ((t.mark id β σ).applyAll cs).1 = (t.applyAll cs).1.mark id β τ ∧
      ((∀ b, β b = b) ∨ (∃ j ∈ (t.applyAll cs).1.jobs, j.id = id) →
        ((t.mark id β σ).applyAll cs).2.filter Notice.isEnd = (t.applyAll cs).2.filter Notice.isEnd) := by
  induction cs generalizing t σ with
  | nil => exact ⟨σ, hσ, rfl, fun _ => rfl⟩
  | cons c cs ih =>
    obtain ⟨τ, hτ, ht, hn⟩ := overlooks_apply (β := β) h hσ c
    obtain ⟨ρ, hρ, hr, hm⟩ := ih (h.apply c) hτ
    simp only [applyAll_cons, List.filter_append]
    rw [ht]
    refine ⟨ρ, hρ, hr, fun hβ => ?_⟩
    rw [hm hβ, hn (hβ.imp_right fun ⟨j, hj, hid⟩ => ?_)]
    obtain ⟨i, hi, he⟩ := id_of_applyAll hj
    exact ⟨i, hi, he.trans hid⟩

end JobTable

end JobShell
