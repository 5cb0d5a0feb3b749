import JobShell.Proofs.JobTable.Interference

/-!
# A claim that is given back

A claim changes three fields of a job, and to put it back sets them to what the claim remembers of two of them and says that nobody
waits for the job. So a job that nobody waited for before is the same afterwards (`restore_claimed`), also if the collector changed
other jobs in between (`apply_claimed`).
-/

namespace JobShell

/-- The job as a foreground wait owns it. -/
def Job.claimed (j : Job) : Job := { j with background := false, state := .running, waited := true }

/-- What the claim of a job remembers. -/
def Job.claim (j : Job) : Claim :=
  { group := { pgid := j.pgid, expected := j.live, statusPid := j.members.getLast? }
    command := j.command, background := j.background, state := j.state }

namespace JobTable

variable {t : JobTable} {id : JobId} {j : Job} {c : Change}

/-- The claim of a job marks it. -/
theorem claim?_of_find (hj : t.find? id = some j) : t.claim? id = some (t.modify id Job.claimed, j.claim) := by
  rw [claim?, hj]
  rfl

/-- A job that nobody waited for is put back as it was, and with it the table. -/
theorem restore_claimed (h : t.WellFormed) (hj : t.find? id = some j) (hw : j.waited = false) :
    (t.modify id Job.claimed).restore id j.claim = t := by
  obtain ⟨hmem, rfl⟩ := (find?_eq_some_iff h).1 hj
  refine eq_of_jobs rfl ?_
  simp only [restore, modify, List.map_map]
  refine (List.map_congr_left fun i hi => ?_).trans (List.map_id _)
  by_cases he : i.id = j.id
  · obtain rfl := h.eq_of_id hi hmem he
    simp [Job.claimed, Job.claim, ← hw]
  · simp [he]

/-- A change of another job is the same whether a job is claimed or not. -/
theorem apply_claimed (h : t.WellFormed) (hj : t.find? id = some j) (hc : ∀ k, t.concerned? c = some k → k.id ≠ id) :
    (t.modify id Job.claimed).apply c = ((t.apply c).1.modify id Job.claimed, (t.apply c).2) := by
  obtain ⟨hmem, rfl⟩ := (find?_eq_some_iff h).1 hj
  have hclaimed : (t.modify j.id Job.claimed).WellFormed := h.modify (fun _ => rfl) fun _ _ => rfl
  have hput := modify_eq_put h hmem Job.claimed
  have hsame : (t.modify j.id Job.claimed).concerned? c = t.concerned? c := by
    rw [hput]
    refine concerned?_put h hmem (fun he => hc j he rfl) ?_
    rintro k ⟨⟩
    exact ⟨rfl, rfl⟩
  cases hk : t.concerned? c with
  | none => rw [apply_of_none h hk, apply_of_none hclaimed (hsame.trans hk)]
  | some k =>
    have hstays : j ∈ (t.apply c).1.jobs :=
      ((find?_eq_some_iff (h.apply c)).1 ((find?_apply_of_ne h hc).trans hj)).1
    have hlater := modify_eq_put (h.apply c) hstays Job.claimed
    rw [apply_of_some h hk] at hlater
    rw [apply_of_some hclaimed (hsame.trans hk), apply_of_some h hk, hlater, hput]
    refine Prod.ext (put_comm (hc k hk).symm ?_ fun _ hl => id_of_after hl) rfl
    rintro l ⟨⟩
    rfl

end JobTable

end JobShell
