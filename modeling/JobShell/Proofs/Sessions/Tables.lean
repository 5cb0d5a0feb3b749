import JobShell.Proofs.JobTable.Turns
import JobShell.Proofs.Sessions.Operations
import JobShell.Proofs.Threads.Quiet

/-!
# What operations do to the table

Every operation takes the table through turns (`turns_act`), and so do any number of them, whatever the system answers. A foreground
wait is a turn of its own, because in it the collector may find the job marked.

`table_of_operations` says what this means for the table of a shell that began with no jobs: it is consistent after any operations, no
number is ever given twice, and what a job was registered with stays. If only groups without a job are registered, the groups of the
jobs stay apart and all of them can be collected in the background whenever no operation is under way.
-/

namespace JobShell

open JobTable Act QuietAux

variable {σ : Type} {S : System σ} {allowed : JobTable → Pid → Prop}

namespace TablesAux

/-- The changes of the collector, one after the other, make up a frame for waits. -/
theorem waitFrame_applyAll (S : System σ) :
    WaitFrame S fun s s' => ∃ cs, s'.table = (s.table.applyAll cs).1 where
  refl := fun _ => ⟨[], rfl⟩
  trans := by
    rintro s s' s'' ⟨cs, h⟩ ⟨ds, h'⟩
    refine ⟨cs ++ ds, ?_⟩
    rw [applyAll_append, ← h, h']
  environment := fun _ _ => ⟨[], rfl⟩
  asked := fun _ => ⟨[], rfl⟩
  announced := fun _ _ => ⟨[], rfl⟩
  collected := fun _ c => ⟨[c], rfl⟩
  timed := fun _ _ _ _ => ⟨[], rfl⟩

/-- The turns of the table make up a frame for sessions. -/
theorem sessionFrame_turns (S : System σ) (allowed : JobTable → Pid → Prop) :
    SessionFrame S fun s s' => Turns allowed s.table s'.table where
  refl := fun _ => .refl
  trans := .trans
  environment := fun _ _ => .refl
  asked := fun _ => .refl
  announced := fun _ _ => .refl
  collected := fun _ c => .single (.collected c)
  ended := fun _ pid group status => .single (.ended pid group status)
  finished := fun _ pgid status => .single (.finished pgid status)
  suspended := fun _ pgid command live members => .single (.suspended pgid command live members)
  resumed := fun _ _ _ _ h => .single (.resumed h)
  timed := fun _ _ _ _ => .refl
  noted := fun _ _ => .refl
  left := fun _ => .refl

/-- In a foreground wait nothing changes the table but the collector. -/
theorem table_awaitGroup (S : System σ) (g : GroupWait) (s : Session σ) :
    ∃ cs, (awaitGroup S g s).2.table = (s.table.applyAll cs).1 :=
  (waitFrame_applyAll S).awaitGroupFrom (fun _ => ⟨[], rfl⟩) S.patience {} s

/-- A foreground wait for a pipeline just launched takes the table through turns of the collector. -/
theorem turns_awaitForeground (l : Launched) :
    Within (fun s s' => Turns allowed s.table s'.table) (awaitForeground S l) := by
  have frame := sessionFrame_turns S allowed
  have waits : ∀ g : GroupWait, Within (fun s s' => Turns allowed s.table s'.table) (awaitGroup S g) := fun g =>
    frame.awaitGroupFrom (fun _ => .refl) S.patience {}
  have given : Within (fun s s' => Turns allowed s.table s'.table) (giveTerminal S l.pgid) := fun _ => .refl
  have reclaimed : Within (fun s s' => Turns allowed s.table s'.table) (reclaimTerminal S) := fun _ => .refl
  exact frame.bind given fun _ => frame.bind (waits _) fun _ => frame.bind reclaimed fun _ => frame.pure _

/-- To continue a job in the foreground is one turn, or none if there is no such job. -/
theorem turns_bringToForeground (id : JobId) :
    Within (fun s s' => Turns allowed s.table s'.table) (bringToForeground S id) := by
  intro s
  rw [bringToForeground, bind_apply, get_apply]
  dsimp only
  cases hc : s.table.claim? id with
  | none => exact .refl
  | some claimed =>
    obtain ⟨t, c⟩ := claimed
    dsimp only
    rw [bind_apply, modify_apply, bind_apply, bind_apply]
    have given := (quiet_giveTerminal S c.group.pgid { s with table := t }).1
    generalize (giveTerminal S c.group.pgid { s with table := t }).2 = s₁ at given
    have signalled := (quiet_ask (S.signalGroup c.group.pgid .cont) s₁).1.trans given
    generalize ask (S.signalGroup c.group.pgid .cont) s₁ = q at signalled ⊢
    obtain ⟨r, s₂⟩ := q
    dsimp only at signalled ⊢
    subst signalled
    cases r with
    | error cause =>
      -- The job is put back at once: the collector had no turn since the claim.
      have closed : Closed id c (s₂.table.applyAll []).1 ((s₂.table.applyAll []).1.restore id c) := .failed
      exact .single (.continued [] hc closed)
    | ok =>
      dsimp only
      rw [bind_apply, bind_apply]
      obtain ⟨cs, waited⟩ := table_awaitGroup S c.group s₂
      generalize awaitGroup S c.group s₂ = q at waited ⊢
      obtain ⟨r, s₃⟩ := q
      dsimp only at waited ⊢
      have reclaimed : (reclaimTerminal S s₃).2.table = (s₂.table.applyAll cs).1 :=
        (quiet_reclaimTerminal S s₃).1.trans waited
      generalize (reclaimTerminal S s₃).2 = s₄ at reclaimed ⊢
      refine .single (.continued cs hc ?_)
      rw [← reclaimed]
      rcases r with cause | (status | ⟨signal, live⟩)
      · exact .failed
      · have ended := (changeTable_apply S (·.markFinished c.group.pgid status) s₄).1
        show Closed id c s₄.table (Act.markFinished S c.group.pgid status s₄).2.table
        rw [Act.markFinished, ended]
        exact .finished status
      · have stopped := (trackStopped_apply S c.group.pgid c.command live [] s₄).1
        show Closed id c s₄.table (Act.trackStopped S c.group.pgid c.command live [] s₄).2.table
        rw [stopped]
        exact .stopped live

end TablesAux

open TablesAux

/-- The group that an operation registers a job for as a group of its own, when it begins in this session: one that is added, or a
pipeline launched in the background. A group that stops is no such group, for it may have a job already. -/
def Operation.registered? (S : System σ) (x : Executor) (s : Session σ) : Operation → Option Pid
  | .add pgid .. | .addPipeline pgid .. => some pgid
  | .run p _ =>
    match x.inShell? p with
    | some _ => none
    | none =>
      match (launch S x.name p s).1 with
      | .ok l => if p.background then some l.pgid else none
      | .error _ => none
  | _ => none

/-- An operation takes the table through turns. -/
theorem turns_act (S : System σ) (x : Executor) (o : Operation) (s : Session σ)
    (ha : ∀ pgid, o.registered? S x s = some pgid → allowed s.table pgid) :
    Turns allowed s.table (o.act S x s).2.table := by
  have frame := sessionFrame_turns S allowed
  have launches : LaunchFrame S fun s s' => Turns allowed s.table s'.table := ⟨frame.toFrame, fun _ _ => .refl, fun _ _ _ => .refl⟩
  cases o with
  | run p line =>
    have inShell : ∀ stage, x.inShell? p = some stage → Builtin.find? x.builtins stage.program = some .fg →
        ∀ id, Within (fun s s' => Turns allowed s.table s'.table) (bringToForeground S id) := fun _ _ _ id =>
      turns_bringToForeground id
    cases hs : x.inShell? p with
    | some stage => exact frame.execute_inShell x p line hs (inShell stage hs) s
    | none =>
      refine frame.execute_launched launches x p line s hs (fun l s' hl hb => ?_) fun l _ _ _ => turns_awaitForeground l
      have same : s'.table = s.table := by
        have := (quiet_launch S x.name p s).1
        rw [hl] at this
        exact this
      have allows : allowed s'.table l.pgid := same ▸ ha l.pgid (by simp [Operation.registered?, hs, hl, hb])
      exact .single (.added allows _ true _ l.pids)
  | collect => exact frame.collectPass s
  | add pgid command background count => exact .single (.added (ha pgid rfl) command background count [])
  | addPipeline pgid command background members => exact .single (.added (ha pgid rfl) command background members.length members)
  | trackStopped pgid command live members => exact frame.trackStopped pgid command live members s
  | markFinished pgid status => exact frame.markFinished pgid status s
  | childExited pid status => exact frame.childExited pid status s
  | childStatus status => exact frame.childStatus status s
  | foreground id => exact turns_bringToForeground id s
  | background id => exact frame.sendToBackground id s
  | kill id signal => exact frame.killJob id signal s
  | announce n => exact frame.announce n s
  | list => exact .refl
  | get id => exact .refl

/-- Each of the operations registers only groups without a job, in the session in which it begins. -/
def RegistersUntracked (S : System σ) (x : Executor) : List Operation → Session σ → Prop
  | [], _ => True
  | o :: rest, s =>
    (∀ pgid, o.registered? S x s = some pgid → s.table.Untracked pgid) ∧ RegistersUntracked S x rest (o.act S x s).2

/-- Operations take the table through turns, one after the other. -/
theorem turns_perform (S : System σ) (x : Executor) (ops : List Operation) (s : Session σ) :
    Turns (fun _ _ => True) s.table (perform S x ops s).2.table := by
  induction ops generalizing s with
  | nil => exact .refl
  | cons o rest ih => exact (turns_act S x o s fun _ _ => trivial).trans (ih (o.act S x s).2)

/-- Operations that register only groups without a job take the table through turns that do so too. -/
theorem turns_of_registersUntracked (S : System σ) (x : Executor) (ops : List Operation) (s : Session σ)
    (h : RegistersUntracked S x ops s) : Turns Untracked s.table (perform S x ops s).2.table := by
  induction ops generalizing s with
  | nil => exact .refl
  | cons o rest ih => exact (turns_act S x o s h.1).trans (ih (o.act S x s).2 h.2)

/-! ## The table of a shell -/

namespace JobTable

/-- What the table of jobs shows of itself is of one piece: a job is found by its own number, which was given, and has not ended;
the list is in the order of the numbers, tells of each number what `get?` tells, and ends with the current job. -/
structure Consistent (t : JobTable) : Prop where
  stored : ∀ j ∈ t.jobs, t.find? j.id = some j
  numbered : ∀ j ∈ t.jobs, 1 ≤ j.id ∧ j.id ≤ t.lastId
  unfinished : ∀ j ∈ t.jobs, j.state ≠ .done
  ascending : (t.list.map (·.id)).Pairwise (· < ·)
  listed : ∀ id, t.get? id = t.list.find? (·.id == id)
  current : t.current? = (t.list.map (·.id)).max?

/-- The last number of an ascending list is its greatest. -/
theorem getLast?_of_ascending {ids : List JobId} (h : ids.Pairwise (· < ·)) : ids.getLast? = ids.max? := by
  cases hl : ids.getLast? with
  | none =>
    rw [List.getLast?_eq_none_iff.1 hl]
    rfl
  | some id =>
    obtain ⟨before, rfl⟩ := List.getLast?_eq_some_iff.1 hl
    refine (List.max?_eq_some_iff.2 ⟨by simp, fun k hk => ?_⟩).symm
    rcases List.mem_append.1 hk with hk | hk
    · exact Nat.le_of_lt ((List.pairwise_append.1 h).2.2 k hk id (List.mem_singleton_self id))
    · exact Nat.le_of_eq (List.mem_singleton.1 hk)

/-- A well-formed table is consistent. -/
theorem WellFormed.consistent {t : JobTable} (h : t.WellFormed) : t.Consistent := by
  have hlist : t.list = t.jobs.map Job.info := by rw [list, sweep_of_tracked h.tracked]
  have hids : t.list.map (·.id) = t.jobs.map (·.id) := by
    rw [hlist, List.map_map]
    rfl
  have hasc : (t.jobs.map (·.id)).Pairwise (· < ·) := List.pairwise_map.2 h.ascending
  refine ⟨fun j hj => (find?_eq_some_iff h).2 ⟨hj, rfl⟩, h.issued, fun j hj => bne_iff_ne.1 (h.tracked j hj), ?_, fun id => ?_, ?_⟩
  · rw [hids]
    exact hasc
  · rw [hlist, List.find?_map]
    rfl
  · rw [hids, ← getLast?_of_ascending hasc, List.getLast?_map]
    rfl

end JobTable

/-- The table of a shell that began with no jobs, after any operations and after any later ones: it is consistent; a job of the later
table is one of the earlier, with the same number, group and command, or has a number greater than all that were given until then; and
if only groups without a job were registered, then the groups of the jobs are apart and are the ones that may be collected in the
background. -/
theorem table_of_operations (S : System σ) (x : Executor) (ops later : List Operation) (s : Session σ) (hs : s.table = {}) :
    let t := (perform S x ops s).2.table
    let t' := (perform S x (ops ++ later) s).2.table
    t.Consistent ∧ t.lastId ≤ t'.lastId ∧
    (∀ j ∈ t'.jobs, (∃ k ∈ t.jobs, k.id = j.id ∧ k.pgid = j.pgid ∧ k.command = j.command) ∨ t.lastId < j.id) ∧
    (RegistersUntracked S x ops s → (t.list.map (·.pgid)).Nodup ∧ t.backgroundGroups = t.list.map (·.pgid)) := by
  intro t t'
  have h0 : s.table.WellFormed := hs ▸ wellFormed_empty
  have first : Evolves s.table t := .turns h0 (turns_perform S x ops s)
  have second : Evolves t t' := by
    have turned : Turns (fun _ _ => True) t (perform S x later (perform S x ops s).2).2.table := turns_perform S x later _
    rw [← perform_append] at turned
    exact .turns first.wellFormed turned
  refine ⟨first.wellFormed.consistent, second.lastId, fun j hj => ?_, fun hu => ?_⟩
  · refine (second.jobs j hj).imp_left fun ⟨k, hk, he⟩ => ⟨k, hk, ?_⟩
    simpa [Job.identity] using he
  · have h0 : Tidy none s.table := hs ▸ .start
    have tidy : Tidy none t := h0.turns (turns_of_registersUntracked S x ops s hu)
    have groups : t.list.map (·.pgid) = t.jobs.map (·.pgid) := by
      rw [list, sweep_of_tracked tidy.wellFormed.tracked, List.map_map]
      rfl
    exact ⟨groups ▸ tidy.groups, tidy.backgroundGroups⟩

/-- Two jobs are added, the first is continued in the foreground and ends there, and a third group stops. -/
theorem table_of_operations_of_three :
    let s : Session Unit := { world := () }
    let ops : List Operation := [.add 100 "a" true 2, .addPipeline 200 "b" true [200, 201], .foreground 1,
      .trackStopped 300 "c" 1 [300]]
    let t := (perform .idle {} ops s).2.table
    s.table = {} ∧ RegistersUntracked .idle {} ops s ∧ t.list.map (fun i => (i.id, i.pgid)) = [(2, 200), (3, 300)] ∧
    (t.list.map (·.pgid)).Nodup ∧ t.backgroundGroups = t.list.map (·.pgid) := by
  intro s ops t
  have untracked : RegistersUntracked .idle {} ops s := by
    refine ⟨?_, ?_, nofun, nofun, trivial⟩
    · rintro _ ⟨⟩ _ hj
      cases hj
    · rintro _ ⟨⟩
      show ∀ j : Job, j ∈ ((Operation.add 100 "a" true 2).act .idle {} s).2.table.jobs → j.pgid ≠ 200
      decide
  exact ⟨rfl, untracked, by decide +kernel, (table_of_operations .idle {} ops [] s rfl).2.2.2 untracked⟩

end JobShell
