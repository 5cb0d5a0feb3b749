import JobShell.Proofs.JobTable.Careers
import JobShell.Proofs.Sessions.Standing
import JobShell.Proofs.Sessions.Tables
import JobShell.Proofs.Threads.Sessions

/-!
# What operations on jobs announce

Here no collector works beside the shell, so that operations on the table follow one another. For each of them it is said once what it
does to the table and what it announces (`Operation.Dealt`). Continuing a job in the foreground has four ends (`Brought`): there is no such
job, or it cannot be continued and is put back, or it ends, or it stops.

`notices_of_jobs` puts them together: the notices of one job are a career, its end is announced by the operation that ends it, and only
in the background, and the command is the one that it was registered with.
-/

namespace JobShell

open JobTable Act QuietAux SessionsAux

variable {σ : Type} {S : System σ}

namespace Operation

/-- The operation is one of the table: it neither runs a line nor gives a notice on its own. -/
def isOnTable : Operation → Bool
  | .run .. | .announce _ => false
  | _ => true

/-- The job that the operation takes to the foreground. -/
def owned? : Operation → Option JobId
  | .foreground id => some id
  | _ => none

/-- The number and the command of the job that the operation registers in this table, if it registers one. -/
def registration? (t : JobTable) : Operation → Option (JobId × String)
  | .add _ command .. | .addPipeline _ command .. => some (t.lastId + 1, command)
  | .trackStopped pgid command .. => if (t.ofGroup? pgid).isNone then some (t.lastId + 1, command) else none
  | _ => none

/-- The operation answers with an error. -/
def Fails (S : System σ) (s : Session σ) : Operation → Prop
  | .foreground id => ∃ e, (bringToForeground S id s).1 = .error e
  | .background id => ∃ e, (sendToBackground S id s).1 = .error e
  | .kill id signal => ∃ e, (killJob S id signal s).1 = .error e
  | _ => False

end Operation

/-- What comes of continuing a job in the foreground, while no collector has a turn: the answer, the table and what is announced. -/
inductive Brought (t : JobTable) (id : JobId) : Except JobError ForegroundOutcome → JobTable → List Notice → Prop
  | missing : Brought t id (.error (.notFound id)) t []
  | failed {t' : JobTable} {c : Claim} (claimed : t.claim? id = some (t', c)) (e : JobError) :
    Brought t id (.error e) (t'.restore id c) []
  | finished {t' : JobTable} {c : Claim} (claimed : t.claim? id = some (t', c)) (status : ExitStatus) :
    Brought t id (.ok (.finished status)) (t'.markFinished c.group.pgid status).1 (t'.markFinished c.group.pgid status).2.toList
  | stopped {t' : JobTable} {c : Claim} (claimed : t.claim? id = some (t', c)) (signal : Signal) (live : Nat) :
    Brought t id (.ok (.stopped signal live)) (t'.trackStopped c.group.pgid c.command live []).1
      (t'.trackStopped c.group.pgid c.command live []).2.2.toList

namespace AnnouncementsAux

variable {s : Session σ} {id : JobId}

/-! ## What single operations announce -/

/-- Without a collector no pass is due. -/
theorem serveCollector_of_none (hc : s.collector = none) : serveCollector S s = ((), s) := by
  rw [serveCollector, bind_apply, get_apply, hc]
  rfl

/-- Without a collector, a wait for a group is quiet. -/
theorem awaitGroup_of_none (g : GroupWait) (hc : s.collector = none) :
    (awaitGroup S g s).2.table = s.table ∧ (awaitGroup S g s).2.notices = s.notices := by
  have once : ∀ s : Session σ, s.collector = none → (awaitedOnce S g.pgid s).2.table = s.table ∧
      (awaitedOnce S g.pgid s).2.notices = s.notices ∧ (awaitedOnce S g.pgid s).2.collector = none := by
    intro s hc
    have asked : (ask (S.await g.pgid) s).2.table = s.table ∧ (ask (S.await g.pgid) s).2.notices = s.notices ∧
        (ask (S.await g.pgid) s).2.collector = none := ⟨rfl, rfl, hc⟩
    rw [awaitedOnce]
    generalize ask (S.await g.pgid) s = q at asked
    obtain ⟨r, s₁⟩ := q
    dsimp only at asked ⊢
    split
    · rw [serveCollector_of_none asked.2.2]
      exact asked
    · exact asked
  have waits : ∀ (patience : Nat) (p : WaitProgress) (s : Session σ), s.collector = none →
      (awaitGroupFrom S g patience p s).2.table = s.table ∧ (awaitGroupFrom S g patience p s).2.notices = s.notices := by
    intro patience
    induction patience with
    | zero => exact fun _ _ _ => ⟨rfl, rfl⟩
    | succ patience ih =>
      intro p s hc
      cases complete : g.isComplete p with
      | true =>
        rw [awaitGroupFrom_complete patience s complete]
        exact ⟨rfl, rfl⟩
      | false =>
        obtain ⟨table, notices, hc⟩ := once s hc
        rw [awaitGroupFrom_open patience s complete]
        cases g.observe p (awaitedOnce S g.pgid s).1 with
        | proceed p => exact ⟨(ih p _ hc).1.trans table, (ih p _ hc).2.trans notices⟩
        | settled r => exact ⟨table, notices⟩
  exact waits S.patience {} s hc

/-- What comes of continuing a job in the foreground. -/
theorem brought (id : JobId) (hc : s.collector = none) :
    ∃ ns, Brought s.table id (bringToForeground S id s).1 (bringToForeground S id s).2.table ns ∧
      (bringToForeground S id s).2.notices = s.notices ++ ns := by
  rw [bringToForeground, bind_apply, get_apply]
  dsimp only
  cases hclaim : s.table.claim? id with
  | none => exact ⟨[], .missing, (List.append_nil _).symm⟩
  | some claimed =>
    obtain ⟨t, c⟩ := claimed
    dsimp only
    rw [bind_apply, modify_apply, bind_apply, bind_apply]
    dsimp only
    generalize hq : ask (S.signalGroup c.group.pgid .cont) (giveTerminal S c.group.pgid { s with table := t }).2 = q
    obtain ⟨r, s₁⟩ := q
    have same : s₁.table = t ∧ s₁.notices = s.notices ∧ s₁.collector = none := by
      obtain rfl : _ = s₁ := congrArg Prod.snd hq
      exact ⟨rfl, rfl, hc⟩
    obtain ⟨rfl, notices, hc₁⟩ := same
    cases r with
    | error cause => exact ⟨[], .failed hclaim _, notices.trans (List.append_nil _).symm⟩
    | ok =>
      dsimp only
      rw [bind_apply, bind_apply]
      have waited := awaitGroup_of_none (S := S) c.group hc₁
      generalize awaitGroup S c.group s₁ = q at waited
      obtain ⟨r, s₂⟩ := q
      have back := quiet_reclaimTerminal S s₂
      dsimp only at waited ⊢
      generalize (reclaimTerminal S s₂).2 = s₃ at back
      have table : s₃.table = s₁.table := back.1.trans waited.1
      have notices : s₃.notices = s.notices := back.2.trans (waited.2.trans notices)
      rw [← table] at hclaim
      rw [← notices]
      rcases r with cause | (status | ⟨signal, live⟩)
      · exact ⟨[], .failed hclaim _, (List.append_nil _).symm⟩
      · have ended := changeTable_apply S (·.markFinished c.group.pgid status) s₃
        refine ⟨_, ?_, ended.2⟩
        show Brought s.table id _ (Act.markFinished S c.group.pgid status s₃).2.table _
        rw [Act.markFinished, ended.1]
        exact .finished hclaim status
      · have stopped := trackStopped_apply S c.group.pgid c.command live [] s₃
        refine ⟨_, ?_, stopped.2⟩
        show Brought s.table id _ (Act.trackStopped S c.group.pgid c.command live [] s₃).2.table _
        rw [stopped.1]
        exact .stopped hclaim signal live

/-- What comes of continuing a job in the background: an error and nothing else, or the job goes on and this is announced. -/
theorem sent (id : JobId) (s : Session σ) :
    ((∃ e, (sendToBackground S id s).1 = .error e) ∧ (sendToBackground S id s).2.table = s.table ∧
      (sendToBackground S id s).2.notices = s.notices) ∨
    ((sendToBackground S id s).1 = .ok () ∧ ∃ n, s.table.resume? id = some ((sendToBackground S id s).2.table, n) ∧
      (sendToBackground S id s).2.notices = s.notices ++ [n]) := by
  rw [sendToBackground, bind_apply, get_apply]
  dsimp only
  cases hj : s.table.find? id with
  | none => exact Or.inl ⟨⟨_, rfl⟩, rfl, rfl⟩
  | some j =>
    dsimp only
    rw [bind_apply]
    generalize hq : ask (S.signalGroup j.pgid .cont) s = q
    obtain ⟨r, s₁⟩ := q
    have same : s₁.table = s.table ∧ s₁.notices = s.notices := by
      obtain rfl : _ = s₁ := congrArg Prod.snd hq
      exact ⟨rfl, rfl⟩
    cases r with
    | error cause => exact Or.inl ⟨⟨_, rfl⟩, same⟩
    | ok =>
      dsimp only
      rw [bind_apply, get_apply]
      dsimp only
      have resumed : s₁.table.resume? id =
          some (s₁.table.modify id fun j => { j with background := true, state := .running }, .resumed id j.command) := by
        rw [resume?, same.1, hj]
        rfl
      rw [resumed]
      dsimp only
      have told := announce_apply S (.resumed id j.command)
        { s₁ with table := s₁.table.modify id fun j => { j with background := true, state := .running } }
      refine Or.inr ⟨rfl, .resumed id j.command, ?_, told.2.trans (congrArg (· ++ _) same.2)⟩
      rw [← same.1, resumed]
      exact congrArg (fun t => some (t, _)) told.1.symm

/-- The second session came from the first by changes of the collector, and what fell due with them was announced. -/
def Collects (s s' : Session σ) : Prop :=
  ∃ cs, s'.table = (s.table.applyAll cs).1 ∧ s'.notices = s.notices ++ (s.table.applyAll cs).2

/-- By no change at all. -/
theorem Collects.of_quiet {s s' : Session σ} (ht : s'.table = s.table) (hn : s'.notices = s.notices) : Collects s s' :=
  ⟨[], ht, hn.trans (List.append_nil _).symm⟩

/-- By some changes after others. -/
theorem Collects.trans {s s' s'' : Session σ} (h : Collects s s') (h' : Collects s' s'') : Collects s s'' := by
  obtain ⟨cs, ht, hn⟩ := h
  obtain ⟨ds, ht', hn'⟩ := h'
  refine ⟨cs ++ ds, ?_, ?_⟩
  · rw [applyAll_append, ← ht, ht']
  · rw [applyAll_append, ← ht, hn', hn, List.append_assoc]

/-- By one change. -/
theorem Collects.of_change (s : Session σ) (c : Change) : Collects s (changeTable S (·.apply c) s).2 := by
  obtain ⟨ht, hn⟩ := changeTable_apply S (·.apply c) s
  refine ⟨[c], ht, ?_⟩
  rw [hn, applyAll_cons]
  exact congrArg (s.notices ++ ·) (List.append_nil _).symm

/-- A pass over one group. -/
theorem collects_collectGroup (pgid : Pid) (patience : Nat) (s : Session σ) : Collects s (collectGroup S pgid patience s).2 := by
  induction patience generalizing s with
  | zero => exact .of_quiet rfl rfl
  | succ patience ih =>
    rw [collectGroup, bind_apply]
    generalize hq : ask (S.poll pgid) s = q
    obtain ⟨r, s₁⟩ := q
    have asked : Collects s s₁ := by
      obtain rfl : _ = s₁ := congrArg Prod.snd hq
      exact .of_quiet rfl rfl
    refine asked.trans ?_
    cases r with
    | error e =>
      dsimp only
      split
      · exact ih s₁
      · split
        · exact .of_change s₁ (.conclusion pgid)
        · exact .of_quiet rfl rfl
    | ok w =>
      have recorded : Collects s₁ (collectGroup S pgid patience (Act.childStatus S w s₁).2).2 :=
        Collects.trans (.of_change s₁ (.report ⟨fun pid => S.groupOf pid s₁.world, w⟩)) (ih _)
      cases w with
      | stillAlive => exact .of_quiet rfl rfl
      | _ => exact recorded

/-- A pass of the collector. -/
theorem collects_collectPass (s : Session σ) : Collects s (collectPass S s).2 := by
  have groups : ∀ (work : List Pid) (s : Session σ), Collects s (collectGroups S work s).2 := by
    intro work
    induction work with
    | nil => exact fun _ => .of_quiet rfl rfl
    | cons pgid rest ih => exact fun s => (collects_collectGroup pgid S.patience s).trans (ih _)
  exact groups s.table.backgroundGroups s

end AnnouncementsAux

open AnnouncementsAux

/-- What an operation does to the table and what it announces: these notices, which come of touches of the table, tell of each job that it
ends in the background, and are none where the operation fails. -/
structure Operation.Dealt (S : System σ) (x : Executor) (o : Operation) (s : Session σ) (ns : List Notice) : Prop where
  notices : (o.act S x s).2.notices = s.notices ++ ns
  touches : Touches s.table (o.registration? s.table).toList ns (o.act S x s).2.table
  ends : EndsTold o.owned? s.table ns (o.act S x s).2.table
  silent : o.Fails S s → ns = []

namespace AnnouncementsAux

variable {x : Executor}

/-- No job goes, and nothing is told. -/
theorem endsTold_same (owned : Option JobId) (t : JobTable) : EndsTold owned t [] t := .of_kept (fun j hj => ⟨j, hj, rfl⟩) nofun

/-- An operation that makes one change of the table. -/
theorem dealt_of_change {o : Operation} (change : JobTable → JobTable × Option Notice) {s : Session σ}
    (act : (o.act S x s).2 = (changeTable S change s).2) (registration : o.registration? s.table = none) (owned : o.owned? = none)
    (answers : ¬ o.Fails S s) (touches : Touches s.table [] (change s.table).2.toList (change s.table).1)
    (ends : EndsTold none s.table (change s.table).2.toList (change s.table).1) : ∃ ns, o.Dealt S x s ns := by
  obtain ⟨table, notices⟩ := changeTable_apply S change s
  refine ⟨_, act ▸ notices, ?_, ?_, fun h => absurd h answers⟩
  · rw [act, table, registration]
    exact touches
  · rw [act, table, owned]
    exact ends

/-- A claim changes one job, in its place. -/
theorem touches_claim {t t' : JobTable} {id : JobId} {c : Claim} (hc : t.claim? id = some (t', c)) : Touches t [] [] t' := by
  obtain ⟨j, -, rfl, -⟩ := claim?_some hc
  exact .quiet (fun _ => rfl) fun _ _ => rfl

/-- A claim takes no job away. -/
theorem kept_of_claim {t t' : JobTable} {id : JobId} {c : Claim} {j : Job} (hc : t.claim? id = some (t', c)) (hj : j ∈ t.jobs) :
    ∃ k ∈ t'.jobs, k.id = j.id := by
  obtain ⟨i, -, rfl, -⟩ := claim?_some hc
  exact kept_of_modify _ (fun _ => rfl) hj

/-- The job of a claimed group is the claimed one, which is in the foreground. -/
theorem ofGroup?_of_claimed {t t' : JobTable} {id : JobId} {c : Claim} (ht : Tidy none t) (hc : t.claim? id = some (t', c)) :
    ∃ j, t'.ofGroup? c.group.pgid = some j ∧ j.id = id ∧ j.background = false := by
  obtain ⟨marked, -⟩ := ht.claim hc
  obtain ⟨j, hj, rfl, rfl⟩ := claim?_some hc
  obtain ⟨hmem, rfl⟩ := (find?_eq_some_iff ht.wellFormed).1 hj
  have claimed : { j with background := false, state := .running, waited := true } ∈ (t.modify j.id fun i =>
      { i with background := false, state := .running, waited := true }).jobs := (mem_modify ht.wellFormed hmem).2 (Or.inr rfl)
  dsimp only
  cases ho : JobTable.ofGroup? _ j.pgid with
  | none => exact ((ofGroup?_eq_none_iff marked.wellFormed).1 ho _ claimed rfl).elim
  | some i =>
    obtain ⟨hi, hg⟩ := ofGroup?_some ho
    obtain rfl := marked.eq_of_pgid hi claimed hg
    exact ⟨_, rfl, rfl, rfl⟩

/-- To continue a job in the foreground. -/
theorem dealt_foreground (id : JobId) (s : Session σ) (ht : Tidy none s.table) (hc : s.collector = none) :
    ∃ ns, Operation.Dealt S x (.foreground id) s ns := by
  obtain ⟨ns, came, notices⟩ := brought (S := S) id hc
  have hw := ht.wellFormed
  have act : ((Operation.foreground id).act S x s).2 = (bringToForeground S id s).2 := rfl
  suffices h : Touches s.table [] ns (bringToForeground S id s).2.table ∧ EndsTold (some id) s.table ns (bringToForeground S id s).2.table ∧
      ((∃ e, (bringToForeground S id s).1 = .error e) → ns = []) from
    ⟨ns, act ▸ notices, act ▸ h.1, act ▸ h.2.1, h.2.2⟩
  generalize bringToForeground S id s = q at came
  obtain ⟨answer, s'⟩ := q
  dsimp only at came ⊢
  generalize s'.table = t' at came
  cases came with
  | missing => exact ⟨.none, endsTold_same _ _, fun _ => rfl⟩
  | failed claimed e =>
    have unfinished := (Evolves.claim hw claimed).2
    refine ⟨(touches_claim claimed).trans (.quiet (fun _ => rfl) fun _ _ => bne_iff_ne.2 unfinished), ?_, fun _ => rfl⟩
    refine .of_kept (fun j hj => ?_) nofun
    obtain ⟨k, hk, he⟩ := kept_of_claim claimed hj
    obtain ⟨i, hi, he'⟩ := kept_of_modify (fun j => { j with background := _, state := _, waited := false }) (fun _ => rfl) hk
    exact ⟨i, hi, he'.trans he⟩
  | @finished t' c claimed status =>
    have marked := (ht.claim claimed).1.wellFormed
    refine ⟨(touches_claim claimed).trans (.markFinished marked _ status), ?_, by rintro ⟨e, ⟨⟩⟩⟩
    obtain ⟨j, hj, rfl, hb⟩ := ofGroup?_of_claimed ht claimed
    rw [markFinished_of_some hj]
    have silent : (t'.finish j status).2.toList = [] := by
      show (j.endNotice status).toList = []
      rw [Job.endNotice, if_neg (by simp [hb])]
      rfl
    rw [silent]
    -- No other job is gone.
    refine fun id => ⟨by rintro ⟨n, hn, -⟩; exact absurd hn List.not_mem_nil, ?_⟩
    rintro ⟨i, hi, rfl, -, hne, hgone⟩
    obtain ⟨k, hk, he⟩ := kept_of_claim claimed hi
    exact absurd he (hgone k ((mem_finish marked status).2 ⟨hk, fun hid => hne (congrArg some (hid.symm.trans he))⟩))
  | @stopped t' c claimed signal live =>
    refine ⟨?_, ?_, by rintro ⟨e, ⟨⟩⟩⟩
    · obtain ⟨j, hj, -, -⟩ := ofGroup?_of_claimed ht claimed
      have touches := (touches_claim claimed).trans (.trackStopped c.group.pgid c.command live [])
      rwa [hj] at touches
    · refine .of_kept (fun j hj => ?_) fun n hn => isEnd_of_trackStopped (Option.mem_toList.1 hn)
      obtain ⟨k, hk, he⟩ := kept_of_claim claimed hj
      obtain ⟨i, hi, he'⟩ := kept_of_trackStopped hk
      exact ⟨i, hi, he'.trans he⟩

/-- Every operation on the table. -/
theorem dealt (o : Operation) (ho : o.isOnTable = true) (s : Session σ) (ht : Tidy none s.table) (hc : s.collector = none) :
    ∃ ns, o.Dealt S x s ns := by
  have hw := ht.wellFormed
  cases o with
  | run p line => cases ho
  | announce n => cases ho
  | collect =>
    obtain ⟨cs, table, notices⟩ := collects_collectPass (S := S) s
    refine ⟨_, notices, ?_, ?_, nofun⟩
    · show Touches s.table [] _ (collectPass S s).2.table
      rw [table]
      exact .applyAll hw cs
    · show EndsTold none s.table _ (collectPass S s).2.table
      rw [table]
      exact .applyAll hw cs
  | add pgid command background count =>
    refine ⟨[], (List.append_nil _).symm, .single (.registered pgid command background count []), ?_, fun _ => rfl⟩
    exact .of_kept (fun j hj => ⟨j, mem_insert.2 (Or.inl hj), rfl⟩) nofun
  | addPipeline pgid command background members =>
    refine ⟨[], (List.append_nil _).symm, .single (.registered pgid command background members.length members), ?_, fun _ => rfl⟩
    exact .of_kept (fun j hj => ⟨j, mem_insert.2 (Or.inl hj), rfl⟩) nofun
  | trackStopped pgid command live members =>
    obtain ⟨table, notices⟩ := trackStopped_apply S pgid command live members s
    have touches := Touches.trackStopped (t := s.table) pgid command live members
    refine ⟨_, notices, ?_, ?_, nofun⟩
    · show Touches s.table (if (s.table.ofGroup? pgid).isNone then some (s.table.lastId + 1, command) else none).toList _
        (Act.trackStopped S pgid command live members s).2.table
      rw [table]
      cases ho : s.table.ofGroup? pgid with
      | none => rwa [ho] at touches
      | some j => rwa [ho] at touches
    · show EndsTold none s.table _ (Act.trackStopped S pgid command live members s).2.table
      rw [table]
      exact .of_kept (fun _ hj => kept_of_trackStopped hj) fun n hn => isEnd_of_trackStopped (Option.mem_toList.1 hn)
  | markFinished pgid status =>
    exact dealt_of_change (·.markFinished pgid status) rfl rfl rfl id (.markFinished hw pgid status)
      (.markFinished hw pgid status)
  | childExited pid status =>
    exact dealt_of_change (·.childExited pid ((S.groupOf pid s.world).getD pid) status) rfl rfl rfl id
      (.childExited hw pid _ status) (.childExited hw pid _ status)
  | childStatus status =>
    exact dealt_of_change (·.childStatus (fun pid => S.groupOf pid s.world) status) rfl rfl rfl id
      (.childStatus hw _ status) (.childStatus hw _ status)
  | foreground id => exact dealt_foreground id s ht hc
  | background id =>
    have act : ((Operation.background id).act S x s).2 = (sendToBackground S id s).2 := rfl
    rcases sent (S := S) id s with ⟨-, table, notices⟩ | ⟨answer, n, resumed, notices⟩
    · refine ⟨[], act ▸ notices.trans (List.append_nil _).symm, ?_, ?_, fun _ => rfl⟩
      · rw [act, table]
        exact .none
      · rw [act, table]
        exact endsTold_same _ _
    · obtain ⟨j, hj, table, rfl⟩ := resume?_some resumed
      have news : ∀ m ∈ some (Notice.resumed id j.command), m.isMove = true ∧ ∃ i ∈ s.table.jobs, i.id = m.id ∧ i.command = m.command := by
        rintro m ⟨⟩
        exact ⟨rfl, j, (find?_eq_some_iff hw).1 hj |>.1, ((find?_eq_some_iff hw).1 hj).2, rfl⟩
      refine ⟨[.resumed id j.command], act ▸ notices, ?_, ?_, ?_⟩
      · rw [act, table]
        show Touches s.table [] (some (Notice.resumed id j.command)).toList _
        exact .single (.changed _ (fun _ => rfl) (fun _ _ => rfl) news)
      · rw [act, table]
        refine .of_modify (fun _ => rfl) fun m hm => ?_
        rw [List.mem_singleton.1 hm]
        rfl
      · rintro ⟨e, he⟩
        rw [answer] at he
        cases he
  | kill id signal =>
    have act : ((Operation.kill id signal).act S x s).2 = (killJob S id signal s).2 := rfl
    obtain ⟨table, notices⟩ := (frame_quiet S).killJob id signal s
    refine ⟨[], act ▸ notices.trans (List.append_nil _).symm, ?_, ?_, fun _ => rfl⟩
    · rw [act, table]
      exact .none
    · rw [act, table]
      exact endsTold_same _ _
  | list => exact ⟨[], (List.append_nil _).symm, .none, endsTold_same _ _, nofun⟩
  | get id => exact ⟨[], (List.append_nil _).symm, .none, endsTold_same _ _, nofun⟩

/-- No operation on the table starts a collector. -/
theorem collector_act (o : Operation) (ho : o.isOnTable = true) (s : Session σ) (hc : s.collector = none) :
    (o.act S x s).2.collector = none := by
  have frame := (standing_collector S).jobFrame
  cases o with
  | run p line => cases ho
  | announce n => cases ho
  | collect => exact frame.collectPass s hc
  | add pgid command background count => exact hc
  | addPipeline pgid command background members => exact hc
  | trackStopped pgid command live members => exact frame.trackStopped pgid command live members s hc
  | markFinished pgid status => exact frame.markFinished pgid status s hc
  | childExited pid status => exact frame.childExited pid status s hc
  | childStatus status => exact frame.childStatus status s hc
  | foreground id => exact (standing_collector S).bringToForeground id s hc
  | background id => exact frame.sendToBackground id s hc
  | kill id signal => exact frame.killJob id signal s hc
  | list => exact hc
  | get id => exact hc

end AnnouncementsAux

/-- The numbers and the commands of the jobs that operations register, in order. -/
def registrations (S : System σ) (x : Executor) : List Operation → Session σ → List (JobId × String)
  | [], _ => []
  | o :: rest, s => (o.registration? s.table).toList ++ registrations S x rest (o.act S x s).2

namespace AnnouncementsAux

variable {x : Executor} {ops later : List Operation}

/-- Of operations that register only groups without a job, the first ones do so too. -/
theorem registersUntracked_of_append (h : RegistersUntracked S x (ops ++ later) s) : RegistersUntracked S x ops s := by
  induction ops generalizing s with
  | nil => trivial
  | cons o rest ih => exact ⟨h.1, ih h.2⟩

/-- Operations, one after the other, leave the groups of the jobs apart and start no collector. -/
theorem tidy_perform (hops : ∀ o ∈ ops, o.isOnTable = true) (hu : RegistersUntracked S x ops s) (ht : Tidy none s.table)
    (hc : s.collector = none) : Tidy none (perform S x ops s).2.table ∧ (perform S x ops s).2.collector = none := by
  refine ⟨ht.turns (turns_of_registersUntracked S x ops s hu), ?_⟩
  clear hu ht
  induction ops generalizing s with
  | nil => exact hc
  | cons o rest ih =>
    exact ih (fun o ho => hops o (List.mem_cons_of_mem _ ho)) (collector_act o (hops o List.mem_cons_self) s hc)

/-- Operations, one after the other, go on with the annals. -/
theorem annals_perform {rs : List (JobId × String)} (hops : ∀ o ∈ ops, o.isOnTable = true) (hu : RegistersUntracked S x ops s)
    (ht : Tidy none s.table) (hc : s.collector = none) (h : Annals rs s.notices s.table) :
    Annals (rs ++ registrations S x ops s) (perform S x ops s).2.notices (perform S x ops s).2.table := by
  induction ops generalizing s rs with
  | nil =>
    rw [registrations, List.append_nil]
    exact h
  | cons o rest ih =>
    have ho : o.isOnTable = true := hops o List.mem_cons_self
    obtain ⟨ns, done⟩ := dealt (S := S) (x := x) o ho s ht hc
    have next : Annals (rs ++ (o.registration? s.table).toList) (o.act S x s).2.notices (o.act S x s).2.table := by
      rw [done.notices]
      exact h.touches done.touches
    have tidy : Tidy none (o.act S x s).2.table := ht.turns (turns_act S x o s hu.1)
    have all := ih (fun o ho => hops o (List.mem_cons_of_mem _ ho)) hu.2 tidy (collector_act o ho s hc) next
    rwa [List.append_assoc] at all

end AnnouncementsAux

/-- What operations on the table announce, in a session that began with no jobs, while no collector works beside them and if only groups
without a job are registered. The notices of each job are how it stopped and went on, and then at most once that it ended. That it ended is
announced by the operation that takes it out of the table, if it is in the background then, which the job that `fg` continues is not; an
operation that fails announces nothing. Each notice is of a job that was registered, under the command of its registration, and no two
registrations have the same number. -/
theorem notices_of_jobs (S : System σ) (x : Executor) (ops : List Operation) (s : Session σ) (hops : ∀ o ∈ ops, o.isOnTable = true)
    (ht : s.table = {}) (hn : s.notices = []) (hc : s.collector = none) (hu : RegistersUntracked S x ops s) :
    let ns := (perform S x ops s).2.notices
    (∀ id, Career (ns.filter (·.id == id))) ∧
    (∀ before o later, ops = before ++ o :: later →
      let s₁ := (perform S x before s).2
      let s₂ := (o.act S x s₁).2
      ∃ new, s₂.notices = s₁.notices ++ new ∧ (o.Fails S s₁ → new = []) ∧
        ∀ id, (∃ n ∈ new, n.isEnd = true ∧ n.id = id) ↔
          ∃ j ∈ s₁.table.jobs, j.id = id ∧ j.background = true ∧ o.owned? ≠ some id ∧ ∀ k ∈ s₂.table.jobs, k.id ≠ id) ∧
    (∀ n ∈ ns, (n.id, n.command) ∈ registrations S x ops s) ∧ ((registrations S x ops s).map Prod.fst).Nodup := by
  intro ns
  have tidy : Tidy none s.table := ht ▸ .start
  have start : Annals [] s.notices s.table := by
    rw [ht, hn]
    exact .start
  have annals := annals_perform hops hu tidy hc start
  rw [List.nil_append] at annals
  refine ⟨annals.careers, fun before o later he => ?_, annals.told, ?_⟩
  · subst he
    have first : ∀ o ∈ before, o.isOnTable = true := fun o ho => hops o (List.mem_append_left _ ho)
    obtain ⟨tidy₁, hc₁⟩ := tidy_perform first (registersUntracked_of_append hu) tidy hc
    obtain ⟨new, done⟩ := dealt (S := S) (x := x) o (hops o (by simp)) _ tidy₁ hc₁
    exact ⟨new, done.notices, done.silent, done.ends⟩
  · rw [annals.numbered]
    exact List.nodup_range'

/-- A job stops in the foreground under another text, goes on in the background and ends there. -/
theorem notices_of_jobs_of_one :
    let s : Session Unit := { world := () }
    let ops : List Operation :=
      [.add 100 "sleep 9" true 1, .trackStopped 100 "fg" 1 [], .background 1, .kill 2 .term, .childStatus (.exited 100 0)]
    let ns := (perform .idle {} ops s).2.notices
    (∀ o ∈ ops, o.isOnTable = true) ∧ RegistersUntracked .idle {} ops s ∧
    ns = [.stopped 1 "sleep 9", .resumed 1 "sleep 9", .finished 1 "sleep 9" (.exited 0)] ∧
    (∀ id, Career (ns.filter (·.id == id))) ∧ ∀ n ∈ ns, (n.id, n.command) ∈ [(1, "sleep 9")] := by
  intro s ops ns
  have onTable : ∀ o ∈ ops, o.isOnTable = true := by decide
  have untracked : RegistersUntracked .idle {} ops s := by
    refine ⟨?_, nofun, nofun, nofun, nofun, trivial⟩
    rintro _ ⟨⟩ _ hj
    cases hj
  obtain ⟨careers, -, told, -⟩ := notices_of_jobs .idle {} ops s onTable rfl rfl rfl untracked
  exact ⟨onTable, untracked, by decide +kernel, careers, told⟩

end JobShell
