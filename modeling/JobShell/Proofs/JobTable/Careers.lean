import JobShell.Proofs.JobTable.Turns

/-!
# The career of a job

Whatever becomes of the table, it comes of touches: a job is registered, or one is changed in its place, or one ends (`Touch`). A change
may be news, and the end of a job is news if the job is in the background then. So what is told of one job is how it stopped and went on,
and then at most once that it ended (`Career`), always under the command that it was registered with (`Annals`).

Which jobs ended in the background is told as well: `EndsTold` says so of one operation on the table, and of several one after the other
where the places of the jobs stay what they are.
-/

namespace JobShell

namespace Notice

/-- The notice tells that a job stopped, or goes on. -/
def isMove : Notice → Bool
  | .stopped .. | .resumed .. => true
  | _ => false

/-- The command of the job that the notice is about. -/
def command : Notice → String
  | .started _ _ command | .finished _ command _ | .stopped _ command | .resumed _ command => command

/-- A move is no end. -/
theorem isEnd_of_isMove {n : Notice} (h : n.isMove = true) : n.isEnd = false := by
  cases n <;> first | rfl | cases h

end Notice

/-- What is told of one job, in order: moves, and then at most one end. -/
def Career : List Notice → Prop
  | [] => True
  | n :: rest => n.isMove = true ∧ Career rest ∨ n.isEnd = true ∧ rest = []

namespace JobTable

/-- One touch of the table: the jobs that it registers, with their numbers and commands, and what it has to tell. -/
inductive Touch (t : JobTable) : List (JobId × String) → List Notice → JobTable → Prop
  | registered (pgid : Pid) (command : String) (background : Bool) (live : Nat) (members : List Pid) :
    Touch t [(t.lastId + 1, command)] [] (t.insert pgid command background live members).1
  | changed {id : JobId} {change : Job → Job} (news : Option Notice) (keeps : ∀ j, (change j).identity = j.identity)
    (tracked : ∀ j, j.isTracked = true → (change j).isTracked = true)
    (moves : ∀ n ∈ news, n.isMove = true ∧ ∃ j ∈ t.jobs, j.id = n.id ∧ j.command = n.command) :
    Touch t [] news.toList (t.modify id change)
  | ended {j : Job} (member : j ∈ t.jobs) (status : ExitStatus) : Touch t [] (j.endNotice status).toList (t.finish j status).1

/-- Touches, one after the other. -/
inductive Touches (t : JobTable) : List (JobId × String) → List Notice → JobTable → Prop
  | none : Touches t [] [] t
  | next {rs rs' : List (JobId × String)} {ns ns' : List Notice} {t' t'' : JobTable} (before : Touches t rs ns t')
    (touch : Touch t' rs' ns' t'') : Touches t (rs ++ rs') (ns ++ ns') t''

variable {t t' t'' : JobTable} {rs rs' : List (JobId × String)} {ns ns' : List Notice} {id : JobId} {j k : Job}

/-! ## What is told of a job -/

/-- What is known when these jobs were registered and these notices given: the numbers were given in order, a job is one of those that
were registered, and what is told is told of one of them. -/
structure Annals (rs : List (JobId × String)) (ns : List Notice) (t : JobTable) : Prop where
  wellFormed : t.WellFormed
  numbered : rs.map Prod.fst = List.range' 1 t.lastId
  registered : ∀ j ∈ t.jobs, (j.id, j.command) ∈ rs
  told : ∀ n ∈ ns, (n.id, n.command) ∈ rs
  gone : ∀ n ∈ ns, n.isEnd = true → ∀ j ∈ t.jobs, j.id ≠ n.id
  careers : ∀ id, Career (ns.filter (·.id == id))

/-- After moves only, one more notice continues a career. -/
theorem career_snoc {ns : List Notice} {n : Notice} (h : Career ns) (hm : ∀ m ∈ ns, m.isEnd = false)
    (hn : n.isMove = true ∨ n.isEnd = true) : Career (ns ++ [n]) := by
  induction ns with
  | nil => exact hn.imp (fun h => ⟨h, trivial⟩) fun h => ⟨h, rfl⟩
  | cons m rest ih =>
    rcases h with ⟨hmove, hrest⟩ | ⟨hend, -⟩
    · exact Or.inl ⟨hmove, ih hrest fun k hk => hm k (List.mem_cons_of_mem m hk)⟩
    · rw [hm m List.mem_cons_self] at hend
      cases hend

namespace Annals

/-- Nothing was registered yet. -/
theorem start : Annals [] [] {} := ⟨wellFormed_empty, rfl, nofun, nofun, nofun, fun _ => trivial⟩

/-- The careers go on, and what is told is told of jobs that were registered, when a notice is about a job of the table. -/
theorem tell (h : Annals rs ns t) (news : Option Notice)
    (about : ∀ n ∈ news, (n.isMove = true ∨ n.isEnd = true) ∧ ∃ j ∈ t.jobs, j.id = n.id ∧ j.command = n.command) :
    (∀ n ∈ ns ++ news.toList, (n.id, n.command) ∈ rs) ∧ ∀ id, Career ((ns ++ news.toList).filter (·.id == id)) := by
  cases news with
  | none =>
    rw [Option.toList_none, List.append_nil]
    exact ⟨h.told, h.careers⟩
  | some n =>
    obtain ⟨hn, j, hj, hid, hcommand⟩ := about n rfl
    refine ⟨fun m hm => ?_, fun id => ?_⟩
    · rcases List.mem_append.1 hm with hm | hm
      · exact h.told m hm
      · obtain rfl := List.mem_singleton.1 hm
        exact hid ▸ hcommand ▸ h.registered j hj
    · rw [List.filter_append]
      by_cases he : n.id = id
      · rw [Option.toList_some, List.filter_cons_of_pos (by simpa using he), List.filter_nil]
        refine career_snoc (h.careers id) (fun m hm => ?_) hn
        -- The job is still there, so that nothing told of its end before.
        obtain ⟨hm, hmid⟩ := List.mem_filter.1 hm
        cases hend : m.isEnd with
        | false => rfl
        | true => exact absurd (hid.trans (he.trans (beq_iff_eq.1 hmid).symm)) (h.gone m hm hend j hj)
      · rw [Option.toList_some, List.filter_cons_of_neg (by simpa using he), List.filter_nil, List.append_nil]
        exact h.careers id

/-- A touch more. -/
theorem touch (h : Annals rs ns t) (ht : Touch t rs' ns' t') : Annals (rs ++ rs') (ns ++ ns') t' := by
  cases ht with
  | registered pgid command background live members =>
    have numbers : ∀ r ∈ rs, r.1 ≤ t.lastId := by
      intro r hr
      have := List.mem_map_of_mem (f := Prod.fst) hr
      rw [h.numbered, List.mem_range'_1, Nat.add_comm 1] at this
      exact Nat.le_of_lt_succ this.2
    rw [List.append_nil]
    refine ⟨h.wellFormed.insert .., ?_, fun j hj => ?_, fun n hn => List.mem_append_left _ (h.told n hn), fun n hn hend j hj => ?_, h.careers⟩
    · show (rs ++ [(t.lastId + 1, command)]).map Prod.fst = List.range' 1 (t.lastId + 1)
      rw [List.map_append, h.numbered, List.range'_concat, Nat.one_mul, Nat.add_comm 1]
      rfl
    · rcases mem_insert.1 hj with hj | rfl
      · exact List.mem_append_left _ (h.registered j hj)
      · exact List.mem_append_right _ (List.mem_singleton_self _)
    · rcases mem_insert.1 hj with hj | rfl
      · exact h.gone n hn hend j hj
      · have := numbers _ (h.told n hn)
        exact Nat.ne_of_gt (Nat.lt_succ_of_le this)
  | @changed id change news keeps tracked moves =>
    have same : ∀ j ∈ (t.modify id change).jobs, ∃ i ∈ t.jobs, i.identity = j.identity := by
      intro j hj
      have := List.mem_map_of_mem (f := Job.identity) hj
      rw [map_modify _ keeps] at this
      exact List.mem_map.1 this
    obtain ⟨told, careers⟩ := h.tell news fun n hn => ⟨Or.inl (moves n hn).1, (moves n hn).2⟩
    rw [List.append_nil]
    refine ⟨h.wellFormed.modify (fun j => congrArg Prod.fst (keeps j)) tracked, h.numbered, fun j hj => ?_, told, ?_, careers⟩
    · obtain ⟨i, hi, he⟩ := same j hj
      obtain ⟨hid, -, hcommand⟩ : i.id = j.id ∧ i.pgid = j.pgid ∧ i.command = j.command := by simpa [Job.identity] using he
      exact hid ▸ hcommand ▸ h.registered i hi
    · intro n hn hend j hj
      obtain ⟨i, hi, he⟩ := same j hj
      have hid : i.id = j.id := congrArg Prod.fst he
      rcases List.mem_append.1 hn with hn | hn
      · exact hid ▸ h.gone n hn hend i hi
      · rw [Notice.isEnd_of_isMove (moves n (Option.mem_toList.1 hn)).1] at hend
        cases hend
  | @ended j member status =>
    have news : ∀ n ∈ j.endNotice status, n.isEnd = true ∧ n.id = j.id ∧ n.command = j.command := by
      intro n hn
      rw [Job.endNotice] at hn
      split at hn
      · obtain rfl := Option.some.inj hn
        exact ⟨rfl, rfl, rfl⟩
      · cases hn
    obtain ⟨told, careers⟩ := h.tell (j.endNotice status) fun n hn =>
      ⟨Or.inr (news n hn).1, j, member, (news n hn).2.1.symm, (news n hn).2.2.symm⟩
    rw [List.append_nil]
    refine ⟨h.wellFormed.finish status, h.numbered, fun k hk => ?_, told, ?_, careers⟩
    · exact h.registered k ((mem_finish h.wellFormed status).1 hk).1
    · intro n hn hend k hk
      obtain ⟨hk, hne⟩ := (mem_finish h.wellFormed status).1 hk
      rcases List.mem_append.1 hn with hn | hn
      · exact h.gone n hn hend k hk
      · exact (news n (Option.mem_toList.1 hn)).2.1 ▸ hne

/-- Touches, one after the other. -/
theorem touches (h : Annals rs ns t) (ht : Touches t rs' ns' t') : Annals (rs ++ rs') (ns ++ ns') t' := by
  induction ht with
  | none =>
    rw [List.append_nil, List.append_nil]
    exact h
  | next _ touch ih =>
    rw [← List.append_assoc, ← List.append_assoc]
    exact ih.touch touch

end Annals

/-! ## The changes of the table as touches -/

namespace Touches

/-- One touch. -/
theorem single (h : Touch t rs ns t') : Touches t rs ns t' := next none h

/-- Touches that follow others. -/
theorem trans (h : Touches t rs ns t') (h' : Touches t' rs' ns' t'') : Touches t (rs ++ rs') (ns ++ ns') t'' := by
  induction h' with
  | none =>
    rw [List.append_nil, List.append_nil]
    exact h
  | next _ touch ih =>
    rw [← List.append_assoc, ← List.append_assoc]
    exact ih.next touch

/-- A change without news. -/
theorem quiet {change : Job → Job} (keeps : ∀ j, (change j).identity = j.identity)
    (tracked : ∀ j, j.isTracked = true → (change j).isTracked = true) : Touches t [] [] (t.modify id change) :=
  single (.changed Option.none keeps tracked nofun)

/-- The end of the job of a group is one, where there is such a job. -/
theorem markFinished (hw : t.WellFormed) (pgid : Pid) (status : ExitStatus) :
    Touches t [] (t.markFinished pgid status).2.toList (t.markFinished pgid status).1 := by
  cases ho : t.ofGroup? pgid with
  | none =>
    rw [markFinished_of_none hw ho]
    exact none
  | some j =>
    rw [markFinished_of_some ho]
    exact single (.ended (ofGroup?_some ho).1 status)

/-- The end of a process changes its job or ends it. -/
theorem childExited (hw : t.WellFormed) (pid group : Pid) (status : ExitStatus) :
    Touches t [] (t.childExited pid group status).2.toList (t.childExited pid group status).1 := by
  cases ho : t.ownerOf? pid group with
  | none =>
    rw [childExited_of_none ho]
    exact none
  | some j =>
    by_cases hl : j.live ≤ 1
    · rw [childExited_of_last ho hl]
      exact single (.ended (ownerOf?_some ho).1 status)
    · rw [childExited_of_more hw ho (Nat.lt_of_not_le hl)]
      exact quiet (fun _ => rfl) fun _ hj => hj

/-- A process that stops or goes on changes its job. -/
theorem childMoved (pid group : Pid) {state : JobState} (hs : state ≠ .done) :
    Touches t [] (t.childMoved pid group state).2.toList (t.childMoved pid group state).1 := by
  cases ho : t.ownerOf? pid group with
  | none =>
    rw [childMoved_of_none ho]
    exact none
  | some j =>
    rw [childMoved_of_owner ho]
    refine single (.changed _ (fun _ => rfl) (fun _ _ => bne_iff_ne.2 hs) fun n hn => ?_)
    split at hn
    · obtain rfl := Option.some.inj hn
      exact ⟨rfl, j, (ownerOf?_some ho).1, rfl, rfl⟩
    · cases hn

/-- A status change. -/
theorem childStatus (hw : t.WellFormed) (groupOf : Pid → Option Pid) (w : WaitStatus) :
    Touches t [] (t.childStatus groupOf w).2.toList (t.childStatus groupOf w).1 := by
  rcases childStatus_cases t groupOf w with ⟨pid, _, -, he⟩ | ⟨pid, -, he⟩ | ⟨pid, exit, -, -, he⟩ | ⟨-, he⟩ <;> rw [he]
  · exact childMoved _ _ (by decide)
  · exact childMoved _ _ (by decide)
  · exact childExited hw _ _ exit
  · exact none

/-- Changes of the collector, one after the other. -/
theorem applyAll (hw : t.WellFormed) (cs : List Change) : Touches t [] (t.applyAll cs).2 (t.applyAll cs).1 := by
  induction cs generalizing t with
  | nil => exact none
  | cons c rest ih =>
    have first : Touches t [] (t.apply c).2.toList (t.apply c).1 := by
      cases c with
      | report r => exact childStatus hw r.groupOf r.status
      | conclusion pgid => exact markFinished hw pgid .unknown
    exact first.trans (ih (hw.apply c))

/-- A group that stops in the foreground: its job is changed, or one is registered and then changed. -/
theorem trackStopped (pgid : Pid) (command : String) (live : Nat) (members : List Pid) :
    Touches t (if (t.ofGroup? pgid).isNone then [(t.lastId + 1, command)] else [])
      (t.trackStopped pgid command live members).2.2.toList (t.trackStopped pgid command live members).1 := by
  have news : ∀ {t : JobTable} {id : JobId}, ∀ n ∈ (t.find? id).map fun j => Notice.stopped id j.command,
      n.isMove = true ∧ ∃ j ∈ t.jobs, j.id = n.id ∧ j.command = n.command := by
    intro t id n hn
    obtain ⟨j, hj, rfl⟩ := Option.map_eq_some_iff.1 hn
    have hid : j.id = id := by simpa using List.find?_some hj
    exact ⟨rfl, j, List.mem_of_find?_eq_some hj, hid, rfl⟩
  cases ho : t.ofGroup? pgid with
  | some j =>
    rw [trackStopped_of_some ho]
    exact single (.changed _ (fun _ => rfl) (fun _ _ => rfl) news)
  | none =>
    rw [trackStopped_of_none ho]
    exact (single (.registered pgid command false live members)).trans (single (.changed _ (fun _ => rfl) (fun _ _ => rfl) news))

end Touches

/-! ## Ends that are told -/

/-- From the one table to the other these ends are told: of each job that was in the background and is gone, but for the one that a
foreground wait owns. -/
def EndsTold (owned : Option JobId) (t : JobTable) (ns : List Notice) (t' : JobTable) : Prop :=
  ∀ id, (∃ n ∈ ns, n.isEnd = true ∧ n.id = id) ↔
    ∃ j ∈ t.jobs, j.id = id ∧ j.background = true ∧ owned ≠ some id ∧ ∀ k ∈ t'.jobs, k.id ≠ id

/-- A change of a job in its place takes no job away. -/
theorem kept_of_modify (change : Job → Job) (hid : ∀ j, (change j).id = j.id) (hj : j ∈ t.jobs) :
    ∃ k ∈ (t.modify id change).jobs, k.id = j.id := by
  have := List.mem_map_of_mem (f := (·.id)) hj
  rw [← map_modify (·.id) hid] at this
  exact List.mem_map.1 this

/-- A group that stops in the foreground takes no job away. -/
theorem kept_of_trackStopped {pgid : Pid} {command : String} {live : Nat} {members : List Pid} (hj : j ∈ t.jobs) :
    ∃ k ∈ (t.trackStopped pgid command live members).1.jobs, k.id = j.id := by
  cases ho : t.ofGroup? pgid with
  | some i =>
    rw [trackStopped_of_some ho]
    exact kept_of_modify _ (fun _ => rfl) hj
  | none =>
    rw [trackStopped_of_none ho]
    exact kept_of_modify _ (fun _ => rfl) (mem_insert.2 (Or.inl hj))

/-- What is told when a group stops in the foreground is no end. -/
theorem isEnd_of_trackStopped {pgid : Pid} {command : String} {live : Nat} {members : List Pid} {n : Notice}
    (hn : n ∈ (t.trackStopped pgid command live members).2.2) : n.isEnd = false := by
  obtain ⟨j, -, rfl⟩ := Option.map_eq_some_iff.1 hn
  rfl

namespace EndsTold

variable {owned : Option JobId}

/-- Where no job goes, and no end is told. -/
theorem of_kept (hk : ∀ j ∈ t.jobs, ∃ k ∈ t'.jobs, k.id = j.id) (hn : ∀ n ∈ ns, n.isEnd = false) : EndsTold owned t ns t' := by
  refine fun id => ⟨?_, ?_⟩
  · rintro ⟨n, hm, hend, -⟩
    rw [hn n hm] at hend
    cases hend
  · rintro ⟨j, hj, rfl, -, -, hgone⟩
    obtain ⟨k, hk, he⟩ := hk j hj
    exact absurd he (hgone k hk)

/-- Where a job is changed in its place, and no end is told. -/
theorem of_modify {change : Job → Job} (hid : ∀ j, (change j).id = j.id) (hn : ∀ n ∈ ns, n.isEnd = false) :
    EndsTold owned t ns (t.modify id change) :=
  of_kept (fun _ hj => kept_of_modify _ hid hj) hn

/-- Where a job ends. -/
theorem finish (hw : t.WellFormed) (hj : j ∈ t.jobs) (status : ExitStatus) :
    EndsTold none t (j.endNotice status).toList (t.finish j status).1 := by
  refine fun id => ⟨?_, ?_⟩
  · rintro ⟨n, hn, -, rfl⟩
    rw [Option.mem_toList, Job.endNotice] at hn
    split at hn
    · rename_i hb
      obtain rfl := Option.some.inj hn
      exact ⟨j, hj, rfl, hb, (Option.some_ne_none _).symm, fun k hk => ((mem_finish hw status).1 hk).2⟩
    · cases hn
  · rintro ⟨i, hi, rfl, hb, -, hgone⟩
    have same : i.id = j.id := by
      by_contra hne
      exact hgone i ((mem_finish hw status).2 ⟨hi, hne⟩) rfl
    obtain rfl := hw.eq_of_id hi hj same
    refine ⟨.finished i.id i.command status, ?_, rfl, rfl⟩
    rw [Job.endNotice, if_pos hb]
    exact List.mem_singleton_self _

/-- The end of the job of a group. -/
theorem markFinished (hw : t.WellFormed) (pgid : Pid) (status : ExitStatus) :
    EndsTold none t (t.markFinished pgid status).2.toList (t.markFinished pgid status).1 := by
  cases ho : t.ofGroup? pgid with
  | none =>
    rw [markFinished_of_none hw ho]
    exact of_kept (fun j hj => ⟨j, hj, rfl⟩) nofun
  | some j =>
    rw [markFinished_of_some ho]
    exact finish hw (ofGroup?_some ho).1 status

/-- The end of a process. -/
theorem childExited (hw : t.WellFormed) (pid group : Pid) (status : ExitStatus) :
    EndsTold none t (t.childExited pid group status).2.toList (t.childExited pid group status).1 := by
  cases ho : t.ownerOf? pid group with
  | none =>
    rw [childExited_of_none ho]
    exact of_kept (fun j hj => ⟨j, hj, rfl⟩) nofun
  | some j =>
    by_cases hl : j.live ≤ 1
    · rw [childExited_of_last ho hl]
      exact finish hw (ownerOf?_some ho).1 status
    · rw [childExited_of_more hw ho (Nat.lt_of_not_le hl)]
      exact of_modify (fun _ => rfl) nofun

/-- A status change. -/
theorem childStatus (hw : t.WellFormed) (groupOf : Pid → Option Pid) (w : WaitStatus) :
    EndsTold none t (t.childStatus groupOf w).2.toList (t.childStatus groupOf w).1 := by
  have moved : ∀ pid group state, EndsTold none t (t.childMoved pid group state).2.toList (t.childMoved pid group state).1 := by
    intro pid group state
    cases ho : t.ownerOf? pid group with
    | none =>
      rw [childMoved_of_none ho]
      exact of_kept (fun j hj => ⟨j, hj, rfl⟩) nofun
    | some j =>
      rw [childMoved_of_owner ho]
      refine of_modify (fun _ => rfl) fun n hn => ?_
      rw [Option.mem_toList] at hn
      split at hn
      · obtain rfl := Option.some.inj hn
        rfl
      · cases hn
  rcases childStatus_cases t groupOf w with ⟨pid, _, -, he⟩ | ⟨pid, -, he⟩ | ⟨pid, exit, -, -, he⟩ | ⟨-, he⟩ <;> rw [he]
  · exact moved _ _ _
  · exact moved _ _ _
  · exact childExited hw _ _ exit
  · exact of_kept (fun j hj => ⟨j, hj, rfl⟩) nofun

/-- Ends that are told one after the other, while the jobs that are left stay in their places. -/
theorem trans (hw : t.WellFormed) (h : EndsTold none t ns t') (h' : EndsTold none t' ns' t'')
    (places : (t'.jobs.map fun j => (j.id, j.background)).Sublist (t.jobs.map fun j => (j.id, j.background)))
    (numbers : ∀ k ∈ t''.jobs, ∃ j ∈ t'.jobs, j.id = k.id) : EndsTold none t (ns ++ ns') t'' := by
  have earlier : ∀ k ∈ t'.jobs, ∃ j ∈ t.jobs, j.id = k.id ∧ j.background = k.background := by
    intro k hk
    obtain ⟨j, hj, he⟩ := List.mem_map.1 (places.subset (List.mem_map_of_mem hk))
    exact ⟨j, hj, Prod.mk.inj he⟩
  refine fun id => ⟨?_, ?_⟩
  · rintro ⟨n, hn, hend, hid⟩
    rcases List.mem_append.1 hn with hn | hn
    · obtain ⟨j, hj, hjid, hb, -, hgone⟩ := (h id).1 ⟨n, hn, hend, hid⟩
      refine ⟨j, hj, hjid, hb, nofun, fun k hk => ?_⟩
      obtain ⟨i, hi, he⟩ := numbers k hk
      exact he ▸ hgone i hi
    · obtain ⟨k, hk, hkid, hb, -, hgone⟩ := (h' id).1 ⟨n, hn, hend, hid⟩
      obtain ⟨j, hj, hjk, hjb⟩ := earlier k hk
      exact ⟨j, hj, hjk.trans hkid, hjb.trans hb, nofun, hgone⟩
  · rintro ⟨j, hj, hjid, hb, -, hgone⟩
    by_cases hleft : ∃ k ∈ t'.jobs, k.id = id
    · obtain ⟨k, hk, hkid⟩ := hleft
      obtain ⟨i, hi, hik, hib⟩ := earlier k hk
      obtain rfl := hw.eq_of_id hi hj (hik.trans (hkid.trans hjid.symm))
      obtain ⟨n, hn, hend⟩ := (h' id).2 ⟨k, hk, hkid, hib.symm.trans hb, nofun, hgone⟩
      exact ⟨n, List.mem_append_right _ hn, hend⟩
    · obtain ⟨n, hn, hend⟩ := (h id).2 ⟨j, hj, hjid, hb, nofun, fun k hk hkid => hleft ⟨k, hk, hkid⟩⟩
      exact ⟨n, List.mem_append_left _ hn, hend⟩

/-- Changes of the collector, one after the other. -/
theorem applyAll (hw : t.WellFormed) (cs : List Change) : EndsTold none t (t.applyAll cs).2 (t.applyAll cs).1 := by
  induction cs generalizing t with
  | nil => exact of_kept (fun j hj => ⟨j, hj, rfl⟩) nofun
  | cons c rest ih =>
    have first : EndsTold none t (t.apply c).2.toList (t.apply c).1 := by
      cases c with
      | report r => exact childStatus hw r.groupOf r.status
      | conclusion pgid => exact markFinished hw pgid .unknown
    exact first.trans hw (ih (hw.apply c)) (map_apply_sublist _ (fun _ _ => rfl) (fun _ _ => rfl) c) fun k hk => id_of_applyAll hk

end EndsTold

end JobTable

end JobShell
