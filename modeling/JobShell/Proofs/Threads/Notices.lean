import JobShell.Proofs.Threads.Resumption

/-!
# What becomes of notices

A thread changes the table first and gives the notice of the change afterwards. So a notice falls due with a change, a thread is
about to give it for a while, and then it is given. `tells_of_step` says what a step does of this (`Tells`), and what holds of a
notice when it falls due (`FallsDue`). What follows for the order of the notices leans on nothing else of the steps.
-/

namespace JobShell

namespace Notice

/-- The notice tells that a job was started. -/
def isStart : Notice → Bool
  | .started .. => true
  | _ => false

/-- The notice tells that a job runs in the background from then on. -/
def isOnset : Notice → Bool
  | .started .. | .resumed .. => true
  | _ => false

/-- A start is an onset. -/
theorem isOnset_of_isStart {n : Notice} (h : n.isStart = true) : n.isOnset = true := by
  cases n <;> first | rfl | cases h

/-- An onset is no end. -/
theorem isEnd_of_isOnset {n : Notice} (h : n.isOnset = true) : n.isEnd = false := by
  cases n <;> first | rfl | cases h

/-- An end is no onset. -/
theorem isOnset_of_isEnd {n : Notice} (h : n.isEnd = true) : n.isOnset = false := by
  cases n <;> first | rfl | cases h

end Notice

/-- The notice that is given. -/
def Event.told? : Event → Option Notice
  | .announce n | .inform n => some n
  | _ => none

/-- The notices of a job that were given, the first one first. -/
def toldOf (id : JobId) (es : List Event) : List Notice := (es.filterMap Event.told?).reverse.filter (·.id == id)

/-- The notice that the shell is about to give. -/
def ShellPoint.pending : ShellPoint → List Notice
  | .announcing n _ => [n]
  | _ => []

namespace State

/-- The notices that were given or are about to be. -/
def tidings (s : State) : List Notice := s.notices ++ s.shell.pending ++ s.collector.pending

/-- The notices of a job that are about to be given. -/
def pendingOf (s : State) (id : JobId) : List Notice := (s.shell.pending ++ s.collector.pending).filter (·.id == id)

end State

/-- A notice that falls due with a change of the table tells of a job of the table, or of a new one. A start is one of a new
job, and a job that ended is gone. -/
structure FallsDue (t t' : JobTable) (n : Notice) : Prop where
  issued : n.id ≤ t'.lastId
  known : t.lastId < n.id ∨ ∃ j ∈ t.jobs, j.id = n.id
  start : n.isStart = true → t.lastId < n.id
  ended : n.isEnd = true → ∀ j ∈ t'.jobs, j.id ≠ n.id

/-- What a step does to the notices: a thread gives the one it was about to give, or it makes a change with which one may fall
due. -/
inductive Tells (s : State) (e : Event) (s' : State) : Prop
  | announced {n : Notice} {reply : Reply} (event : e = .announce n) (at_ : s.shell = .announcing n reply)
    (after : s' = { s with notices := s.notices ++ [n], shell := .answering reply })
  | informed {n : Notice} {work : List Pid} (event : e = .inform n) (at_ : s.collector = .informing n work)
    (after : s' = { s with notices := s.notices ++ [n], collector := .visiting work })
  | shell (due : Option Notice) (silent : e.told? = none) (before : s.shell.pending = [])
    (after : s'.shell.pending = due.toList) (collector : s'.collector.pending = s.collector.pending)
    (notices : s'.notices = s.notices) (lastId : s.table.lastId ≤ s'.table.lastId)
    (jobs : ∀ k ∈ s'.table.jobs, s.table.lastId < k.id ∨ ∃ j ∈ s.table.jobs, j.id = k.id)
    (falls : ∀ n ∈ due, FallsDue s.table s'.table n)
    (place : ∀ n ∈ due, n.isOnset = false → ∀ j ∈ s'.table.jobs, j.id = n.id → j.background = false)
    (enlisted : ∀ id l, e = .enlist id l → ∃ n ∈ due, n.id = id ∧ n.isStart = true)
  | collector (due : Option Notice) (silent : e.told? = none) (before : s.collector.pending = [])
    (after : s'.collector.pending = due.toList) (shell : s'.shell = s.shell) (notices : s'.notices = s.notices)
    (lastId : s'.table.lastId = s.table.lastId)
    (jobs : ∀ k ∈ s'.table.jobs, ∃ j ∈ s.table.jobs, j.id = k.id ∧ j.background = k.background)
    (falls : ∀ n ∈ due, FallsDue s.table s'.table n) (late : ∀ n ∈ due, n.isOnset = false)
    (background : ∀ n ∈ due, n.isEnd = true → ∃ j ∈ s.table.jobs, j.id = n.id ∧ j.background = true)
    (enlisted : ∀ id l, e ≠ .enlist id l)

namespace NoticesAux

open JobTable

variable {s s' : State} {e : Event} {t t' : JobTable} {p p' : ShellPoint} {n : Notice} {id : JobId} {j : Job} {status : ExitStatus}

/-! ### What falls due -/

/-- The notice of an end falls due with it. -/
theorem fallsDue_endNotice (hw : t.WellFormed) (hj : j ∈ t.jobs) (hn : j.endNotice status = some n) :
    FallsDue t (t.finish j status).1 n ∧ n.isEnd = true ∧ n.id = j.id ∧ j.background = true := by
  rw [Job.endNotice] at hn
  split at hn
  · rename_i hb
    obtain rfl := Option.some.inj hn
    refine ⟨⟨(hw.issued j hj).2, Or.inr ⟨j, hj, rfl⟩, by simp [Notice.isStart], fun _ k hk => ?_⟩, rfl, rfl, hb⟩
    exact ((mem_finish hw status).1 hk).2
  · cases hn

/-- The notice of an end of the job of a group falls due with it. -/
theorem fallsDue_markFinished {pgid : Pid} (hw : t.WellFormed) (hn : (t.markFinished pgid status).2 = some n) :
    FallsDue t (t.markFinished pgid status).1 n ∧ n.isEnd = true ∧
      ∃ j ∈ t.jobs, j.id = n.id ∧ j.pgid = pgid ∧ j.background = true := by
  cases ho : t.ofGroup? pgid with
  | none =>
    rw [markFinished_of_none hw ho] at hn
    cases hn
  | some j =>
    obtain ⟨hj, hg⟩ := ofGroup?_some ho
    rw [markFinished_of_some ho] at hn ⊢
    obtain ⟨hdue, he, hid, hb⟩ := fallsDue_endNotice hw hj hn
    exact ⟨hdue, he, j, hj, hid.symm, hg, hb⟩

/-- What is due with a status change tells of its owner. -/
theorem fallsDue_childStatus (hw : t.WellFormed) (groupOf : Pid → Option Pid) (w : WaitStatus)
    (hn : (t.childStatus groupOf w).2 = some n) :
    FallsDue t (t.childStatus groupOf w).1 n ∧ n.isOnset = false ∧
      (n.isEnd = true → ∃ j ∈ t.jobs, j.id = n.id ∧ j.background = true) := by
  have moved : ∀ {pid group state}, (t.childMoved pid group state).2 = some n →
      FallsDue t (t.childMoved pid group state).1 n ∧ n.isOnset = false ∧
        (n.isEnd = true → ∃ j ∈ t.jobs, j.id = n.id ∧ j.background = true) := by
    intro pid group state hn
    cases ho : t.ownerOf? pid group with
    | none =>
      rw [childMoved_of_none ho] at hn
      cases hn
    | some j =>
      have hj := (ownerOf?_some ho).1
      rw [childMoved_of_owner ho] at hn ⊢
      dsimp only at hn
      split at hn
      · obtain rfl := Option.some.inj hn
        exact ⟨⟨(hw.issued j hj).2, Or.inr ⟨j, hj, rfl⟩, nofun, nofun⟩, rfl, nofun⟩
      · cases hn
  rcases childStatus_cases t groupOf w with ⟨pid, _, -, he⟩ | ⟨pid, -, he⟩ | ⟨pid, exit, -, -, he⟩ | ⟨-, he⟩ <;> rw [he] at hn ⊢
  · exact moved hn
  · exact moved hn
  · cases ho : t.ownerOf? pid ((groupOf pid).getD pid) with
    | none =>
      rw [childExited_of_none ho] at hn
      cases hn
    | some j =>
      by_cases hl : j.live ≤ 1
      · have hj := (ownerOf?_some ho).1
        rw [childExited_of_last ho hl] at hn ⊢
        obtain ⟨hdue, he, hid, hb⟩ := fallsDue_endNotice hw hj hn
        exact ⟨hdue, Notice.isOnset_of_isEnd he, fun _ => ⟨j, hj, hid.symm, hb⟩⟩
      · rw [childExited_of_more hw ho (by omega)] at hn
        cases hn
  · cases hn

/-- A stop in the foreground registers one job or none. -/
theorem lastId_le_trackStopped {pgid : Pid} {command : String} {live : Nat} {members : List Pid} :
    t.lastId ≤ (t.trackStopped pgid command live members).1.lastId := by
  cases ho : t.ofGroup? pgid with
  | some j => rw [trackStopped_of_some ho]; exact Nat.le_refl _
  | none => rw [trackStopped_of_none ho]; exact Nat.le_succ _

/-- The jobs after a stop in the foreground have the numbers of those before, or new ones. -/
theorem jobs_of_trackStopped {pgid : Pid} {command : String} {live : Nat} {members : List Pid} (hw : t.WellFormed) {k : Job}
    (hk : k ∈ (t.trackStopped pgid command live members).1.jobs) : t.lastId < k.id ∨ ∃ j ∈ t.jobs, j.id = k.id := by
  cases ho : t.ofGroup? pgid with
  | some j =>
    rcases (mem_trackStopped_of_some hw ho).1 hk with ⟨hk, -⟩ | rfl
    · exact Or.inr ⟨k, hk, rfl⟩
    · exact Or.inr ⟨j, (ofGroup?_some ho).1, rfl⟩
  | none =>
    rcases (mem_trackStopped_of_none hw ho).1 hk with hk | rfl
    · exact Or.inr ⟨k, hk, rfl⟩
    · exact Or.inl (Nat.lt_succ_self _)

/-- The notice of a stop in the foreground falls due with it, and the job is not in the background then. -/
theorem fallsDue_trackStopped {pgid : Pid} {command : String} {live : Nat} {members : List Pid} (hw : t.WellFormed)
    (hn : (t.trackStopped pgid command live members).2.2 = some n) :
    FallsDue t (t.trackStopped pgid command live members).1 n ∧ n.isEnd = false ∧
      ∀ k ∈ (t.trackStopped pgid command live members).1.jobs, k.id = n.id → k.background = false := by
  cases ho : t.ofGroup? pgid with
  | some j =>
    have hj := (ofGroup?_some ho).1
    have hid : n.id = j.id ∧ n.isStart = false ∧ n.isEnd = false := by
      rw [trackStopped_of_some ho] at hn
      obtain ⟨i, -, rfl⟩ := Option.map_eq_some_iff.1 hn
      exact ⟨rfl, rfl, rfl⟩
    have hlast : (t.trackStopped pgid command live members).1.lastId = t.lastId := by rw [trackStopped_of_some ho]; rfl
    refine ⟨⟨?_, Or.inr ⟨j, hj, hid.1.symm⟩, by simp [hid], by simp [hid]⟩, hid.2.2, fun k hk hkid => ?_⟩
    · rw [hlast, hid.1]
      exact (hw.issued j hj).2
    · rcases (mem_trackStopped_of_some hw ho).1 hk with ⟨-, hne⟩ | rfl
      · exact absurd (hkid.trans hid.1) hne
      · rfl
  | none =>
    have hid : n.id = t.lastId + 1 ∧ n.isStart = false ∧ n.isEnd = false := by
      rw [trackStopped_of_none ho] at hn
      obtain ⟨i, -, rfl⟩ := Option.map_eq_some_iff.1 hn
      exact ⟨rfl, rfl, rfl⟩
    have hlast : (t.trackStopped pgid command live members).1.lastId = t.lastId + 1 := by rw [trackStopped_of_none ho]; rfl
    refine ⟨⟨?_, Or.inl ?_, by simp [hid], by simp [hid]⟩, hid.2.2, fun k hk hkid => ?_⟩
    · rw [hlast, hid.1]
    · rw [hid.1]
      exact Nat.lt_succ_self _
    · rcases (mem_trackStopped_of_none hw ho).1 hk with hk | rfl
      · have := (hw.issued k hk).2
        rw [hkid, hid.1] at this
        exact absurd this (Nat.not_succ_le_self _)
      · rfl

/-! ### Steps -/

/-- The point after a change has the notice that fell due. -/
@[simp]
theorem pending_tell_shell (due : Option Notice) (reply : Reply) : (ShellPoint.tell due reply).pending = due.toList := by
  cases due <;> rfl

/-- A table whose jobs are changed in place has the numbers that it had. -/
theorem ids_of_modify {change : Job → Job} (hid : ∀ j, (change j).id = j.id) {k : Job} (hk : k ∈ (t.modify id change).jobs) :
    ∃ j ∈ t.jobs, j.id = k.id := by
  have hm := List.mem_map_of_mem (f := (·.id)) hk
  rw [map_modify _ hid] at hm
  exact List.mem_map.1 hm

/-- A table that shows a sublist of what another one shows has jobs of that one. -/
theorem jobs_of_sublist (hs : (t'.jobs.map fun j => (j.id, j.background)).Sublist (t.jobs.map fun j => (j.id, j.background)))
    {k : Job} (hk : k ∈ t'.jobs) : ∃ j ∈ t.jobs, j.id = k.id ∧ j.background = k.background := by
  obtain ⟨j, hj, he⟩ := List.mem_map.1 (hs.subset (List.mem_map_of_mem hk))
  exact ⟨j, hj, Prod.mk.inj he⟩

/-- Where the shell just moves on, nothing falls due. -/
theorem pending_of_moves (h : p.Moves t e p') : p.pending = [] ∧ p'.pending = [] ∧ e.told? = none ∧ ∀ id l, e ≠ .enlist id l := by
  cases h with
  | killed id pgid signal revive => exact ⟨rfl, by cases revive <;> rfl, rfl, nofun⟩
  | _ => exact ⟨rfl, rfl, rfl, nofun⟩

/-- Where the shell changes a job in its place, only an onset may fall due. -/
theorem tells_of_modify {change : Job → Job} (due : Option Notice) (hw : s.table.WellFormed) (hid : ∀ j, (change j).id = j.id)
    (silent : e.told? = none) (before : s.shell.pending = []) (after : p.pending = due.toList)
    (enlisted : ∀ id l, e ≠ .enlist id l)
    (onset : ∀ n ∈ due, n.isOnset = true ∧ n.isStart = false ∧ ∃ j ∈ s.table.jobs, j.id = n.id) :
    Tells s e { s with table := s.table.modify id change, shell := p } := by
  refine .shell due silent before after rfl rfl (Nat.le_refl _) (fun k hk => Or.inr (ids_of_modify hid hk)) ?_ ?_ ?_
  · intro n hn
    obtain ⟨ho, hst, j, hj, he⟩ := onset n hn
    refine ⟨he ▸ (hw.issued j hj).2, Or.inr ⟨j, hj, he⟩, fun h => ?_, fun h => ?_⟩
    · rw [hst] at h
      cases h
    · rw [Notice.isEnd_of_isOnset ho] at h
      cases h
  · intro n hn ho
    rw [(onset n hn).1] at ho
    cases ho
  · exact fun id l he => absurd he (enlisted id l)

/-- What falls due where the shell changes the table. -/
theorem tells_of_changes (hw : s.table.WellFormed) (h : s.shell.Changes s.table e t p) :
    Tells s e { s with table := t, shell := p } := by
  obtain ⟨table, lock, shell, collector, notices⟩ := s
  dsimp only at hw h ⊢
  cases h with
  | @enlist _ l command id added =>
    obtain ⟨rfl, rfl⟩ := Prod.mk.inj added
    refine .shell (some (.started (table.lastId + 1) l.pgid command)) rfl rfl rfl rfl rfl (Nat.le_succ _) ?_ ?_ ?_ ?_
    · intro k hk
      rcases mem_insert.1 hk with hk | rfl
      · exact Or.inr ⟨k, hk, rfl⟩
      · exact Or.inl (Nat.lt_succ_self _)
    · rintro n ⟨⟩
      exact ⟨Nat.le_refl _, Or.inl (Nat.lt_succ_self _), fun _ => Nat.lt_succ_self _, by simp [Notice.isEnd]⟩
    · rintro n ⟨⟩ ⟨⟩
    · rintro id l ⟨⟩
      exact ⟨_, rfl, rfl, rfl⟩
  | @finish _ f status due finished =>
    obtain ⟨rfl, rfl⟩ := Prod.mk.inj finished
    have hs := map_markFinished_sublist (t := table) (fun j => (j.id, j.background)) f.group.pgid status
    refine .shell _ rfl rfl (pending_tell_shell _ _) rfl rfl (Nat.le_of_eq lastId_markFinished.symm) ?_ ?_ ?_ (by simp)
    · intro k hk
      obtain ⟨j, hj, he, -⟩ := jobs_of_sublist hs hk
      exact Or.inr ⟨j, hj, he⟩
    · exact fun n hn => (fallsDue_markFinished hw hn).1
    · intro n hn _ k hk he
      obtain ⟨hdue, hend, -⟩ := fallsDue_markFinished hw hn
      exact absurd he (hdue.ended hend k hk)
  | @suspend _ f signal live id due tracked =>
    obtain ⟨rfl, hid⟩ := Prod.mk.inj tracked
    obtain rfl : _ = due := congrArg Prod.snd hid
    refine .shell _ rfl rfl (pending_tell_shell _ _) rfl rfl ?_ ?_ ?_ ?_ (by simp)
    · exact lastId_le_trackStopped
    · exact fun k hk => jobs_of_trackStopped hw hk
    · exact fun n hn => (fallsDue_trackStopped hw hn).1
    · exact fun n hn _ => (fallsDue_trackStopped hw hn).2.2
  | giveUp f cause =>
    rw [Foreground.giveUp]
    split
    · exact tells_of_modify none hw (fun _ => rfl) rfl rfl rfl (by simp) (by simp)
    · refine .shell none rfl rfl rfl rfl rfl (Nat.le_refl _) ?_ (by simp) (by simp) (by simp)
      exact fun k hk => Or.inr ⟨k, hk, rfl⟩
  | claim claimed =>
    obtain ⟨j, -, rfl, -⟩ := claim?_some claimed
    exact tells_of_modify none hw (fun _ => rfl) rfl rfl rfl (by simp) (by simp)
  | restore id c cause => exact tells_of_modify none hw (fun _ => rfl) rfl rfl rfl (by simp) (by simp)
  | resume resumed =>
    obtain ⟨j, hj, rfl, rfl⟩ := resume?_some resumed
    refine tells_of_modify (some _) hw (fun _ => rfl) rfl rfl rfl (by simp) ?_
    rintro n ⟨⟩
    obtain ⟨hmem, hid⟩ := (find?_eq_some_iff hw).1 hj
    exact ⟨rfl, rfl, j, hmem, hid⟩

/-- Every step gives a notice, or makes a change with which one may fall due. -/
theorem tells_of_step (hw : s.table.WellFormed) (h : Step s e s') : Tells s e s' := by
  have moved : ∀ {l p}, e.told? = none → s.shell.pending = [] → p.pending = [] → (∀ id l, e ≠ .enlist id l) →
      Tells s e { s with lock := l, shell := p } := by
    intro l p silent before after enlisted
    refine .shell none silent before after rfl rfl (Nat.le_refl _) (fun k hk => Or.inr ⟨k, hk, rfl⟩) nofun nofun ?_
    exact fun id l he => absurd he (enlisted id l)
  have idle : ∀ {l c}, e.told? = none → s.collector.pending = [] → c.pending = [] → (∀ id l, e ≠ .enlist id l) →
      Tells s e { s with lock := l, collector := c } := by
    intro l c silent before after enlisted
    exact .collector none silent before after rfl rfl rfl (fun k hk => ⟨k, hk, rfl, rfl⟩) nofun nofun nofun enlisted
  cases h with
  | move moves =>
    obtain ⟨before, after, silent, enlisted⟩ := pending_of_moves moves
    exact moved silent before after enlisted
  | change changes => exact tells_of_changes hw changes
  | lock at_ free => exact moved rfl (by rw [at_]; rfl) rfl nofun
  | @unlock id c at_ => exact moved rfl (by rw [at_]; rfl) (by cases c <;> rfl) nofun
  | announce at_ => exact .announced rfl at_ rfl
  | enter at_ free => exact idle rfl (by rw [at_]; rfl) rfl nofun
  | survey at_ => exact idle rfl (by rw [at_]; rfl) rfl nofun
  | poll at_ result => exact idle rfl (by rw [at_]; rfl) (ResumptionAux.pending_afterPoll ..) nofun
  | @record r work t due at_ recorded =>
    obtain ⟨rfl, rfl⟩ := Prod.mk.inj recorded
    refine .collector _ rfl (by rw [at_]; rfl) (ResumptionAux.pending_tell _ _) rfl rfl (lastId_childStatus ..) ?_ ?_ ?_ ?_ nofun
    · exact fun k hk => jobs_of_sublist (map_childStatus_sublist _ (fun _ _ => rfl) (fun _ _ => rfl) _ _) hk
    · exact fun n hn => (fallsDue_childStatus hw _ _ hn).1
    · exact fun n hn => (fallsDue_childStatus hw _ _ hn).2.1
    · exact fun n hn => (fallsDue_childStatus hw _ _ hn).2.2
  | @conclude pgid work t due at_ ended =>
    obtain ⟨rfl, rfl⟩ := Prod.mk.inj ended
    refine .collector _ rfl (by rw [at_]; rfl) (ResumptionAux.pending_tell _ _) rfl rfl lastId_markFinished ?_ ?_ ?_ ?_ nofun
    · exact fun k hk => jobs_of_sublist (map_markFinished_sublist _ _ _) hk
    · exact fun n hn => (fallsDue_markFinished hw hn).1
    · exact fun n hn => Notice.isOnset_of_isEnd (fallsDue_markFinished hw hn).2.1
    · intro n hn _
      obtain ⟨-, -, j, hj, hid, -, hb⟩ := fallsDue_markFinished hw hn
      exact ⟨j, hj, hid, hb⟩
  | inform at_ => exact .informed rfl at_ rfl
  | leave at_ => exact idle rfl (by rw [at_]; rfl) rfl nofun

end NoticesAux

end JobShell
