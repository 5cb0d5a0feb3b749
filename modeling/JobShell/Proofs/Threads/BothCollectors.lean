import JobShell.Proofs.Threads.Balance

/-!
# What the jobs count

The steps of the shell keep the books balanced too, so they balance in every state that both threads can lead to
(`Balanced.of_reachable`). `accounting_of_both` says what this means for the jobs where nothing is on its way to the table.
-/

namespace JobShell

namespace BothCollectorsAux

open JobTable HistoriesAux BalanceAux Ledger

variable {L : Ledger} {g : GroupWait} {p p' : WaitProgress} {result : WaitResult} {r : Except Errno ForegroundOutcome}

/-- A wait that goes on has counted the end it was told of, or was told of none. -/
theorem observe_proceed (h : g.observe p result = .proceed p') :
    (result.ended? = none ∧ p'.collected = p.collected) ∨
      ∃ pid, result.ended? = some pid ∧ p'.collected = p.collected + 1 := by
  rcases result with e | w
  · by_cases he : e = .interrupted
    · rw [GroupWait.observe, if_pos he] at h
      cases h
      exact Or.inl ⟨rfl, rfl⟩
    · by_cases hn : e = .noChild
      · rw [GroupWait.observe, if_neg he, if_pos hn] at h
        cases h
      · rw [GroupWait.observe, if_neg he, if_neg hn] at h
        cases h
  · cases w <;> cases h <;> first | exact Or.inl ⟨rfl, rfl⟩ | exact Or.inr ⟨_, rfl, rfl⟩

/-- A wait that ends was told of no end: it found no children, failed, or saw a stop. -/
theorem observe_settled (h : g.observe p result = .settled r) :
    result.ended? = none ∧
      ((result = .error .noChild ∧ r = .ok (.finished p.status)) ∨
      (∃ e, result = .error e ∧ e ≠ .interrupted ∧ e ≠ .noChild ∧ r = .error e) ∨
      ∃ pid signal, result = .ok (.stopped pid signal) ∧ r = .ok (.stopped signal (g.expected - p.collected))) := by
  rcases result with e | w
  · refine ⟨rfl, ?_⟩
    by_cases he : e = .interrupted
    · rw [GroupWait.observe, if_pos he] at h
      cases h
    · by_cases hn : e = .noChild
      · rw [GroupWait.observe, if_neg he, if_pos hn] at h
        cases h
        exact Or.inl ⟨congrArg _ hn, rfl⟩
      · rw [GroupWait.observe, if_neg he, if_neg hn] at h
        cases h
        exact Or.inr (Or.inl ⟨e, rfl, he, hn, rfl⟩)
  · cases w <;> cases h
    exact ⟨rfl, Or.inr (Or.inr ⟨_, _, rfl, rfl⟩)⟩

/-- Collecting leaves nothing of a pipeline of which nothing was left. -/
theorem left_nil_mono {l : Launched} {pid : Pid} (h : L.left l = []) :
    { L with collected := pid :: L.collected }.left l = [] := by
  refine List.eq_nil_iff_forall_not_mem.2 fun q hq => ?_
  obtain ⟨hm, hn⟩ := mem_leftOf.1 hq
  have : q ∈ L.left l := mem_leftOf.2 ⟨hm, fun hc => hn (List.mem_cons_of_mem _ hc)⟩
  rw [h] at this
  cases this

end BothCollectorsAux

namespace Ledger.Balanced

open JobTable HistoriesAux BalanceAux BothCollectorsAux

variable {L : Ledger} {es : List Event} {s s' : State} {t : JobTable} {p : ShellPoint} {l : Launched} {f : Foreground}
  {pid : Pid} {q q' : WaitProgress}

/-! ## The steps of the shell -/

/-- The shell goes on with the same counts, and without leaving a wait. -/
theorem shell (h : L.Balanced s) (hs : s'.collector = s.collector) (ht : SameCounts s.table s'.table)
    (hw : s.shell.waitGroup? = none ∨ s.shell.waitGroup? = s'.shell.waitGroup?) (hc : L.Covered s'.table s'.shell) :
    L.Balanced s' := by
  refine ⟨registry_same h.registry ht, hs ▸ h.pending, fun r hr hne => ?_, hc⟩
  refine counted_same h.counted ht (fun _ _ => by rw [hs]) r hr ?_
  rcases hw with hn | he
  · rw [hn]
    exact nofun
  · rw [he]
    exact hne

/-- A wait is for one pipeline. -/
theorem served_eq (hp : L.Proper) (hs : L.Serves t f l) {a : Launched} (ha : a ∈ L.launched)
    (hg : a.pgid = f.group.pgid) : a = l :=
  hp.groups a ha l hs.1 (hg.trans hs.2.1.symm)

/-- The shell takes the end of a member in a foreground wait: one less is left, and one more is counted. -/
theorem await_end (h : L.Balanced s) (hp : L.Proper) (hat : s.shell = .waiting f q) (hl : l ∈ L.launched)
    (hg : l.pgid = f.group.pgid) (hpid : pid ∈ L.left l) (hq : q'.collected = q.collected + 1) :
    { L with collected := pid :: L.collected }.Balanced { s with shell := .waiting f q' } := by
  have hmem : pid ∈ l.pids := mem_pids_of_left hpid
  have hcov := h.covered
  rw [hat] at hcov
  obtain ⟨a, hs, hexp⟩ := hcov
  obtain rfl := served_eq hp hs hl hg
  refine ⟨⟨h.registry.tracked, h.registry.launched, h.registry.issued, h.registry.numbers, h.registry.groups⟩,
    ⟨h.pending.visited, h.pending.reported, fun g work hc a ha hag => left_nil_mono (h.pending.concluded g work hc a ha hag)⟩,
    ?_, ⟨l, hs, ?_⟩⟩
  · intro r hr hne
    have hother : pid ∉ r.2.pids := fun hm => hne (by
      rw [hp.members _ (h.registry.launched r hr) l hl pid hm hmem, hg]
      rfl)
    rw [due, left_of_not_mem hother]
    exact h.counted r hr (by rw [hat]; exact hne)
  · have := length_left_of_mem (hp.nodup l hl) hpid
    rw [hexp, hq, ← this]
    omega

/-- What is due of the pipeline in hand is what is left of it. -/
theorem due_in_hand (h : L.Balanced s) (hp : L.Proper) (hx : Exclusive es s) (hl : l ∈ L.launched)
    (hin : s.shell.group? = some l.pgid) : L.due s.collector l = (L.left l).length := by
  rw [due, owed_of_unvisited h.registry hp h.pending hl (hx.unvisited _ hin), Nat.add_zero]

/-- While the result of a wait is to be recorded, the jobs of the other pipelines count what is due. -/
theorem counted_settling (h : L.Balanced s) {res : Except Errno ForegroundOutcome} (hat : s.shell = .settling f res)
    (hg : l.pgid = f.group.pgid) {r : JobId × Launched} (hr : r ∈ L.registered) (hrg : r.2.pgid ≠ l.pgid) :
    (∀ j ∈ s.table.jobs, j.id = r.1 → j.live = L.due s.collector r.2 ∧ 1 ≤ j.live) ∧
    ((∀ j ∈ s.table.jobs, j.id ≠ r.1) → L.due s.collector r.2 = 0) := by
  refine h.counted r hr ?_
  rw [hat]
  exact fun he => hrg ((Option.some.inj he).symm.trans hg.symm)

/-- The pipeline of a claimed job counts what is left of it, as long as no wait was begun. -/
theorem left_of_claimed (h : L.Balanced s) (hp : L.Proper) (hx : Exclusive es s) {g : Pid} {n : Nat}
    (hg : s.shell.group? = some g) (hw : s.shell.waitGroup? = none) (hj : ∃ j ∈ s.table.jobs, j.pgid = g ∧ j.live = n) :
    ∃ l ∈ L.launched, l.pgid = g ∧ n = (L.left l).length := by
  obtain ⟨j, hj, rfl, rfl⟩ := hj
  obtain ⟨l, hl, hlg, -⟩ := h.registry.tracked j hj
  have hl' := h.registry.launched _ hl
  have hne : s.shell.waitGroup? ≠ some l.pgid := by rw [hw]; exact nofun
  have hlive := ((h.counted _ hl hne).1 j hj rfl).1
  exact ⟨l, hl', hlg, hlive.trans (h.due_in_hand hp hx hl' (hlg.symm ▸ hg))⟩

/-- The shell registers the pipeline in hand: its job counts what is left of it. -/
theorem register (h : L.Balanced s) (hp : L.Proper) (hw : s.table.WellFormed) (hx : Exclusive es s) {k : Job}
    (hl : l ∈ L.launched) (hu : L.Unregistered l.pgid) (hin : s.shell.group? = some l.pgid)
    (ht : ∀ i, i ∈ t.jobs ↔ i ∈ s.table.jobs ∨ i = k) (hlast : t.lastId = s.table.lastId + 1)
    (hid : k.id = s.table.lastId + 1) (hg : k.pgid = l.pgid) (hm : k.members = l.pids)
    (hlive : k.live = (L.left l).length) (hpos : 0 < k.live)
    (hwait : s.shell.waitGroup? = none ∨ s.shell.waitGroup? = some l.pgid) (hc : ∀ L' t', Covered L' t' p) :
    { L with registered := (k.id, l) :: L.registered }.Balanced { s with table := t, shell := p } := by
  have hnew : ∀ r ∈ L.registered, r.1 ≠ k.id := fun r hr => by
    rw [hid]
    exact Nat.ne_of_lt (Nat.lt_succ_of_le (h.registry.issued r hr))
  refine ⟨⟨fun i hi => ?_, ?_, ?_, ?_, ?_⟩, ⟨fun g hgw => ?_, fun w work hat pid he => ?_, h.pending.concluded⟩, ?_, hc _ _⟩
  · rcases (ht i).1 hi with hi | rfl
    · obtain ⟨a, ha, hrest⟩ := h.registry.tracked i hi
      exact ⟨a, List.mem_cons_of_mem _ ha, hrest⟩
    · exact ⟨l, List.mem_cons_self, hg.symm, hm.symm⟩
  · exact List.forall_mem_cons.2 ⟨hl, h.registry.launched⟩
  · refine List.forall_mem_cons.2 ⟨?_, fun r hr => ?_⟩
    · exact Nat.le_of_eq (hid.trans hlast.symm)
    · rw [hlast]
      exact Nat.le_succ_of_le (h.registry.issued r hr)
  · intro r hr r' hr' he
    rcases List.mem_cons.1 hr with rfl | hr₁ <;> rcases List.mem_cons.1 hr' with rfl | hr₂
    · rfl
    · exact absurd he.symm (hnew r' hr₂)
    · exact absurd he (hnew r hr₁)
    · exact h.registry.numbers r hr₁ r' hr₂ he
  · intro r hr r' hr' he
    rcases List.mem_cons.1 hr with rfl | hr₁ <;> rcases List.mem_cons.1 hr' with rfl | hr₂
    · rfl
    · exact absurd he.symm (hu r' hr₂)
    · exact absurd he (hu r hr₁)
    · exact h.registry.groups r hr₁ r' hr₂ he
  · obtain ⟨r, hr, hrg⟩ := h.pending.visited g hgw
    exact ⟨r, List.mem_cons_of_mem _ hr, hrg⟩
  · obtain ⟨r, hr, hrest⟩ := h.pending.reported w work hat pid he
    exact ⟨r, List.mem_cons_of_mem _ hr, hrest⟩
  · intro r hr _
    rcases List.mem_cons.1 hr with rfl | hr₁
    · refine ⟨fun i hi hik => ?_, fun hn => absurd rfl (hn k ((ht k).2 (Or.inr rfl)))⟩
      rcases (ht i).1 hi with hi | rfl
      · have := (hw.issued i hi).2
        rw [hik, hid] at this
        exact absurd this (Nat.not_succ_le_self _)
      · exact ⟨hlive.trans (h.due_in_hand hp hx hl hin).symm, hpos⟩
    · have hne : s.shell.waitGroup? ≠ some r.2.pgid := by
        rcases hwait with hn | he
        · rw [hn]
          exact nofun
        · rw [he]
          exact fun he => hu r hr₁ (Option.some.inj he).symm
      obtain ⟨hcount, hgone⟩ := h.counted r hr₁ hne
      refine ⟨fun i hi hir => ?_, fun hn => hgone fun i hi => hn i ((ht i).2 (Or.inl hi))⟩
      rcases (ht i).1 hi with hi | rfl
      · exact hcount i hi hir
      · exact absurd hir.symm (hnew r hr₁)

/-- After a notice the shell has nothing in hand to know of. -/
theorem covered_tell (n : Option Notice) (reply : Reply) (L : Ledger) (t : JobTable) : L.Covered t (.tell n reply) := by
  cases n <;> trivial

/-- The result of a wait that finished is recorded: the job of the pipeline, if there was one, is gone, as nothing is left. -/
theorem finish (h : L.Balanced s) (hp : L.Proper) (hw : s.table.WellFormed) (hx : Exclusive es s) {status : ExitStatus}
    (hat : s.shell = .settling f (.ok (.finished status))) (n : Option Notice) (reply : Reply) :
    L.Balanced { s with table := (s.table.markFinished f.group.pgid status).1, shell := .tell n reply } := by
  have hcov := h.covered
  rw [hat] at hcov
  obtain ⟨l, ⟨hl, hg, hserves⟩, hleft⟩ := hcov
  have hnothing : L.due s.collector l = 0 := by
    rw [h.due_in_hand hp hx hl (by rw [hat, hg]; rfl), hleft]
    rfl
  cases ho : s.table.ofGroup? f.group.pgid with
  | none =>
    rw [markFinished_of_none hw ho]
    have hnone := (ofGroup?_eq_none_iff hw).1 ho
    refine ⟨h.registry, h.pending, fun r hr _ => ?_, covered_tell ..⟩
    by_cases hrg : r.2.pgid = l.pgid
    · have hrl := hp.groups _ (h.registry.launched r hr) l hl hrg
      refine ⟨fun j hj hid => ?_, fun _ => ?_⟩
      · obtain ⟨hjg, -⟩ := job_of_number h.registry hr hj hid
        exact absurd (hjg.symm.trans (hrg.trans hg)) (hnone j hj)
      · rw [hrl]
        exact hnothing
    · exact h.counted_settling hat hg hr hrg
  | some j =>
    rw [markFinished_of_some ho]
    obtain ⟨hj, hjg⟩ := ofGroup?_some ho
    have hmem : ∀ k, k ∈ (s.table.finish j status).1.jobs ↔ k ∈ s.table.jobs ∧ k.id ≠ j.id := fun k => mem_finish hw status
    refine ⟨⟨fun k hk => h.registry.tracked k ((hmem k).1 hk).1, h.registry.launched, h.registry.issued, h.registry.numbers,
      h.registry.groups⟩, h.pending, fun r hr _ => ?_, covered_tell ..⟩
    by_cases hrg : r.2.pgid = l.pgid
    · have hrl := hp.groups _ (h.registry.launched r hr) l hl hrg
      have hjid : j.id = r.1 := number_of_group h.registry hr hj (hjg.trans (hg.symm.trans hrg.symm))
      refine ⟨fun k hk hid => absurd (hid.trans hjid.symm) ((hmem k).1 hk).2, fun _ => ?_⟩
      rw [hrl]
      exact hnothing
    · obtain ⟨hcount, hgone⟩ := h.counted_settling hat hg hr hrg
      refine ⟨fun k hk hid => hcount k ((hmem k).1 hk).1 hid, fun hn => hgone fun k hk hid => ?_⟩
      refine hn k ((hmem k).2 ⟨hk, fun hkj => ?_⟩) hid
      obtain ⟨hrj, -⟩ := job_of_number h.registry hr hj (hkj.symm.trans hid)
      exact hrg (hrj.trans (hjg.trans hg.symm))

/-- The stop of a claimed job is recorded: the job counts what the wait left. -/
theorem suspend (h : L.Balanced s) (hp : L.Proper) (hw : s.table.WellFormed) (hx : Exclusive es s) {signal : Signal}
    {live : Nat} (hat : s.shell = .settling f (.ok (.stopped signal live))) (hc : f.claimed.isNone = false)
    (n : Option Notice) (reply : Reply) :
    L.Balanced { s with table := (s.table.trackStopped f.group.pgid f.command live f.members).1, shell := .tell n reply } := by
  have hcov := h.covered
  rw [hat] at hcov
  obtain ⟨l, ⟨hl, hg, hserves⟩, hlive, hpos, -⟩ := hcov
  obtain ⟨j, ho⟩ : ∃ j, s.table.ofGroup? f.group.pgid = some j := by
    cases ho : s.table.ofGroup? f.group.pgid with
    | some j => exact ⟨j, rfl⟩
    | none =>
      cases hf : f.claimed with
      | none => simp [hf] at hc
      | some c =>
        rw [hf] at hserves
        obtain ⟨j, hj, hjg, -⟩ := hserves
        exact absurd (hjg.trans hg) ((ofGroup?_eq_none_iff hw).1 ho j hj)
  obtain ⟨hj, hjg⟩ := ofGroup?_some ho
  have hmem : ∀ k, k ∈ (s.table.trackStopped f.group.pgid f.command live f.members).1.jobs ↔ _ := fun k =>
    mem_trackStopped_of_some hw ho
  have hlast : (s.table.trackStopped f.group.pgid f.command live f.members).1.lastId = s.table.lastId := by
    rw [trackStopped_of_some ho]
    rfl
  refine ⟨⟨fun k hk => ?_, h.registry.launched, fun r hr => hlast ▸ h.registry.issued r hr, h.registry.numbers,
    h.registry.groups⟩, h.pending, fun r hr _ => ?_, covered_tell ..⟩
  · rcases (hmem k).1 hk with ⟨hk, -⟩ | rfl
    · exact h.registry.tracked k hk
    · exact h.registry.tracked j hj
  · by_cases hrg : r.2.pgid = l.pgid
    · have hrl := hp.groups _ (h.registry.launched r hr) l hl hrg
      have hjid : j.id = r.1 := number_of_group h.registry hr hj (hjg.trans (hg.symm.trans hrg.symm))
      have hstopped := (hmem _).2 (Or.inr rfl)
      refine ⟨fun k hk hid => ?_, fun hn => (hn _ hstopped hjid).elim⟩
      rcases (hmem k).1 hk with ⟨-, hne⟩ | rfl
      · exact absurd (hid.trans hjid.symm) hne
      · refine ⟨?_, hpos⟩
        rw [hrl, h.due_in_hand hp hx hl (by rw [hat, hg]; rfl)]
        exact hlive
    · obtain ⟨hcount, hgone⟩ := h.counted_settling hat hg hr hrg
      have hne : j.id ≠ r.1 := fun hid => hrg ((job_of_number h.registry hr hj hid).1.trans (hjg.trans hg.symm))
      refine ⟨fun k hk hid => ?_, fun hn => hgone fun k hk hid => ?_⟩
      · rcases (hmem k).1 hk with ⟨hk, -⟩ | rfl
        · exact hcount k hk hid
        · exact absurd hid hne
      · exact hn k ((hmem k).2 (Or.inl ⟨hk, fun hkj => hne (hkj.symm.trans hid)⟩)) hid

/-- The shell changes the table. -/
theorem change (h : (ledger es).Balanced s) (hp : (ledger es).Proper) (hw : s.table.WellFormed) (hx : Exclusive es s)
    {e : Event} (hc : s.shell.Changes s.table e t p) : (ledger (e :: es)).Balanced { s with table := t, shell := p } := by
  have hcov := h.covered
  revert hc
  generalize hat : s.shell = p₀
  generalize htb : s.table = t₀
  rw [hat] at hcov
  intro hc
  cases hc with
  | @enlist _ l command id added =>
    subst htb
    obtain ⟨rfl, rfl⟩ := Prod.mk.inj added
    obtain ⟨hl, hu, hleft⟩ := hcov
    exact h.register hp hw hx hl hu (by rw [hat]; rfl) (fun i => mem_insert) rfl rfl rfl rfl
      (congrArg List.length hleft).symm (List.length_pos_iff.2 (hp.nonempty l hl)) (Or.inl (by rw [hat]; rfl))
      fun _ _ => trivial
  | finish finished =>
    subst htb
    obtain rfl := congrArg Prod.fst finished
    exact h.finish hp hw hx hat _ _
  | @suspend _ f signal live id n tracked =>
    subst htb
    cases hf : f.claimed.isNone with
    | false =>
      obtain rfl := congrArg Prod.fst tracked
      have hquiet : ledger (.suspend id f :: es) = ledger es :=
        ledger_of_quiet rfl (by rw [Event.registered?, hf]; rfl) rfl
      rw [hquiet]
      exact h.suspend hp hw hx hat hf _ _
    | true =>
      obtain ⟨l, ⟨hl, hg, hserves⟩, hlive, hpos, -⟩ := hcov
      rw [Option.isNone_iff_eq_none.1 hf] at hserves
      obtain ⟨hm, hu⟩ := hserves
      have ho : s.table.ofGroup? f.group.pgid = none :=
        (ofGroup?_eq_none_iff hw).2 fun j hj => hg ▸ no_job_of_unregistered h.registry hu hj
      have hmem : ∀ k, k ∈ (s.table.trackStopped f.group.pgid f.command live f.members).1.jobs ↔ _ := fun k =>
        mem_trackStopped_of_none hw ho
      obtain ⟨rfl, rfl⟩ : t = (s.table.trackStopped f.group.pgid f.command live f.members).1 ∧ id = s.table.lastId + 1 := by
        rw [trackStopped_of_none ho] at tracked ⊢
        exact ⟨(congrArg Prod.fst tracked).symm, (congrArg (·.2.1) tracked).symm⟩
      have hledger : ledger (.suspend (s.table.lastId + 1) f :: es) =
          { ledger es with registered := (s.table.lastId + 1, l) :: (ledger es).registered } := by
        simp only [ledger, launchedIn, registeredIn, collectedIn, List.filterMap_cons, Event.launched?, Event.registered?, hf,
          if_true, Event.collected?, Event.answer?, Option.bind_none, ← hg, hm]
      rw [hledger]
      exact h.register hp hw hx hl hu (by rw [hat, hg]; rfl) hmem (by rw [trackStopped_of_none ho]; rfl) rfl hg.symm hm hlive
        hpos (Or.inr (by rw [hat, hg]; rfl)) (covered_tell _ _)
  | giveUp f cause =>
    obtain ⟨_, -, hfalse⟩ := hcov
    exact hfalse.elim
  | claim claimed =>
    subst htb
    obtain ⟨j, hj, rfl, rfl⟩ := claim?_some claimed
    refine h.shell rfl (SameCounts.modify _ _ fun _ => ⟨rfl, rfl, rfl, rfl⟩) (Or.inl (by rw [hat]; rfl)) ?_
    refine job_same (t := s.table) ?_ ⟨j, List.mem_of_find?_eq_some hj, rfl, rfl⟩
    exact SameCounts.modify _ _ fun _ => ⟨rfl, rfl, rfl, rfl⟩
  | restore id c cause =>
    subst htb
    exact h.shell rfl (SameCounts.modify _ _ fun _ => ⟨rfl, rfl, rfl, rfl⟩) (Or.inl (by rw [hat]; rfl)) trivial
  | resume resumed =>
    subst htb
    obtain ⟨j, -, rfl, -⟩ := resume?_some resumed
    exact h.shell rfl (SameCounts.modify _ _ fun _ => ⟨rfl, rfl, rfl, rfl⟩) (Or.inl (by rw [hat]; rfl)) trivial

/-- A pipeline is launched: it is in hand, and nothing of it was collected. -/
theorem launch (h : (ledger es).Balanced s) (hp : (ledger es).Proper) (hx : Exclusive es s) (hat : s.shell = .ready)
    {command : String} {background : Bool} (ho : Orderly es (.launch l command background)) :
    (ledger (.launch l command background :: es)).Balanced { s with shell := .launched l command background } := by
  obtain ⟨hg, -, -, hdis⟩ := ho
  have hgroup : ∀ a ∈ (ledger es).launched, a.pgid ≠ l.pgid := fun a ha he => hg (List.mem_map.2 ⟨a, ha, he⟩)
  refine ⟨⟨h.registry.tracked, fun r hr => List.mem_cons_of_mem _ (h.registry.launched r hr), h.registry.issued,
    h.registry.numbers, h.registry.groups⟩, ⟨h.pending.visited, h.pending.reported, fun g work hc a ha hag => ?_⟩,
    fun r hr _ => h.counted r hr (by rw [hat]; exact nofun), List.mem_cons_self,
    fun r hr => hgroup _ (h.registry.launched r hr), leftOf_of_disjoint fun q hq hc => ?_⟩
  · rcases List.mem_cons.1 ha with rfl | ha
    · exact absurd (hx.visited g (by rw [hc]; exact List.mem_cons_self)) (hag ▸ hg)
    · exact h.pending.concluded g work hc a ha hag
  · obtain ⟨a, ha, haq⟩ := hp.collected q hc
    exact hdis a ha haq hq

/-- The wait is told something that it goes on with. -/
theorem await (h : (ledger es).Balanced s) (hp : (ledger es).Proper) (hat : s.shell = .waiting f q) {result : WaitResult}
    (ha : Answers es f.group.pgid result) (seen : f.group.observe q result = .proceed q') :
    (ledger (.await f.group.pgid result :: es)).Balanced { s with shell := .waiting f q' } := by
  rcases observe_proceed seen with ⟨hn, hq⟩ | ⟨pid, he, hq⟩
  · rw [ledger_of_quiet (e := .await f.group.pgid result) rfl rfl hn]
    have hcov := h.covered
    rw [hat] at hcov
    obtain ⟨l, hs, hexp⟩ := hcov
    exact h.shell rfl (SameCounts.refl _) (Or.inr (by rw [hat]; rfl)) ⟨l, hs, hq.symm ▸ hexp⟩
  · rw [ledger_of_collected (e := .await f.group.pgid result) rfl rfl he]
    obtain ⟨l, hl, hg, hpid⟩ := left_of_answers ha he
    exact h.await_end hp hat hl hg hpid hq

/-- The wait is told something that ends it, and its result agrees with what is left. -/
theorem settle (h : (ledger es).Balanced s) (hp : (ledger es).Proper) (hat : s.shell = .waiting f q) {result : WaitResult}
    {r : Except Errno ForegroundOutcome} (ha : Answers es f.group.pgid result)
    (seen : f.group.observe q result = .settled r) :
    (ledger (.settle f.group.pgid result :: es)).Balanced { s with shell := .settling f r } := by
  have hcov := h.covered
  rw [hat] at hcov
  obtain ⟨l, hs, hexp⟩ := hcov
  obtain ⟨hn, hcases⟩ := observe_settled seen
  rw [ledger_of_quiet (e := .settle f.group.pgid result) rfl rfl hn]
  refine h.shell rfl (SameCounts.refl _) (Or.inr (by rw [hat]; rfl)) ⟨l, hs, ?_⟩
  rcases hcases with ⟨rfl, rfl⟩ | ⟨e, rfl, hi, hc, -⟩ | ⟨pid, signal, rfl, rfl⟩
  · rcases ha with ha | ⟨-, ha⟩
    · cases ha
    · exact ha l hs.1 hs.2.1
  · rcases ha with ha | ⟨ha, -⟩
    · exact absurd ha hi
    · exact absurd ha hc
  · obtain ⟨a, hal, hag, hne, -⟩ := ha
    obtain rfl := served_eq hp hs hal hag
    have hpos := List.length_pos_iff.2 hne
    rw [hexp, Nat.add_sub_cancel]
    exact ⟨rfl, hpos, by rw [hexp]; exact Nat.le_add_right _ _⟩

/-- The shell moves on. -/
theorem move (h : (ledger es).Balanced s) (hp : (ledger es).Proper) (hx : Exclusive es s) {e : Event} (ho : Orderly es e)
    (hm : s.shell.Moves s.table e p) : (ledger (e :: es)).Balanced { s with shell := p } := by
  have hcov := h.covered
  revert hm
  generalize hat : s.shell = p₀
  rw [hat] at hcov
  intro hm
  have still : ∀ {p}, p₀.waitGroup? = none → (ledger es).Covered s.table p → (ledger es).Balanced { s with shell := p } :=
    fun hw hc => h.shell rfl (SameCounts.refl _) (Or.inl (by rw [hat, hw])) hc
  cases hm with
  | launch l command background => exact h.launch hp hx hat ho
  | begin l command =>
    obtain ⟨hl, hu, hleft⟩ := hcov
    exact still rfl ⟨l, ⟨hl, rfl, rfl, hu⟩, (congrArg List.length hleft).symm⟩
  | await open_ seen => exact h.await hp hat ho seen
  | settle open_ seen => exact h.settle hp hat ho seen
  | @complete f q complete =>
    obtain ⟨l, hs, hexp⟩ := hcov
    refine h.shell rfl (SameCounts.refl _) (Or.inr (by rw [hat]; rfl)) ⟨l, hs, List.length_eq_zero_iff.1 ?_⟩
    have := of_decide_eq_true complete
    omega
  | continued id c =>
    obtain ⟨l, hl, hlg, hexp⟩ := h.left_of_claimed hp hx (by rw [hat]; rfl) (by rw [hat]; rfl) hcov
    exact still rfl ⟨l, ⟨hl, hlg, hlg ▸ hcov⟩, hexp⟩
  | notContinued id c cause => exact still rfl hcov
  | killed id pgid signal revive => exact still rfl (by cases revive <;> trivial)
  | revived | notKilled | killNone | kill | resumeNone | notSignalled | signalled | backgroundNone | background | claimNone
  | foreground | answer => exact still rfl trivial

/-! ## Every step -/

/-- The collector moves on. -/
theorem poll (h : (ledger es).Balanced s) (hp : (ledger es).Proper) (hx : Exclusive es s) {g : Pid} {rest : List Pid}
    (hat : s.collector = .visiting (g :: rest)) {result : WaitResult} (ha : Answers es g result) :
    (ledger (.poll g result :: es)).Balanced { s with collector := .afterPoll g rest result } := by
  have hvisited : ∀ a ∈ g :: rest, ∃ r ∈ (ledger es).registered, r.2.pgid = a := by
    have := h.pending.visited
    rw [hat] at this
    exact this
  have hnone : ∀ l, s.collector.owed l = 0 := fun l => owed_of_not_recording (by rw [hat]; rfl)
  cases he : result.ended? with
  | some pid =>
    rw [ledger_of_collected (e := .poll g result) rfl rfl he]
    obtain ⟨l, hl, hg, hpid⟩ := left_of_answers ha he
    rcases result with e | w
    · cases he
    · have hrec : CollectorPoint.afterPoll g rest (.ok w) = .recording w (g :: rest) := by
        cases w <;> first | rfl | cases he
      rw [hrec]
      exact h.poll_end hp hx hat hl hg hpid he
  | none =>
    rw [ledger_of_quiet (e := .poll g result) rfl rfl he]
    refine h.collector rfl (SameCounts.refl _) ?_ fun r hr => (?_ : _ = 0).trans (hnone r.2).symm
    · rcases CollectorPoint.afterPoll_cases g rest result with hc | ⟨-, hc⟩ | ⟨w, rfl, hc⟩ | ⟨rfl, hc⟩ <;> rw [hc]
      · exact ⟨fun a ha => hvisited a (List.mem_cons_of_mem _ ha), nofun, nofun⟩
      · exact ⟨hvisited, nofun, nofun⟩
      · refine ⟨hvisited, ?_, nofun⟩
        rintro _ _ ⟨⟩ pid hpid
        exact absurd (he.symm.trans hpid) nofun
      · refine ⟨hvisited, nofun, ?_⟩
        rintro _ _ ⟨⟩ l hl hg
        rcases ha with ha | ⟨-, ha⟩
        · cases ha
        · exact ha l hl hg
    · rcases CollectorPoint.afterPoll_cases g rest result with hc | ⟨-, hc⟩ | ⟨w, rfl, hc⟩ | ⟨-, hc⟩ <;> rw [hc] <;>
        first | rfl | skip
      refine if_neg ?_
      rintro ⟨pid, -, hpid⟩
      exact absurd (he.symm.trans hpid) nofun

/-- The collector records a status change. -/
theorem record (h : (ledger es).Balanced s) (hp : (ledger es).Proper) (hw : s.table.WellFormed) (hx : Exclusive es s)
    {r : Report} {work : List Pid} (hat : s.collector = .recording r.status work) (n : Option Notice) :
    (ledger es).Balanced
      { s with table := (s.table.childStatus r.groupOf r.status).1, collector := .tell n work } := by
  have hvisited : ∀ g ∈ work, ∃ r ∈ (ledger es).registered, r.2.pgid = g := by
    have := h.pending.visited
    rw [hat] at this
    exact this
  have other : ∀ {t}, SameCounts s.table t → r.status.ended? = none →
      (ledger es).Balanced { s with table := t, collector := .tell n work } := by
    intro t ht hn
    refine h.collector rfl ht (pending_tell n hvisited) fun a _ => ?_
    rw [owed_of_not_recording (isRecording_tell n work), hat]
    symm
    refine if_neg ?_
    rintro ⟨pid, -, hpid⟩
    exact absurd (hn.symm.trans hpid) nofun
  have moved : ∀ pid group state, SameCounts s.table (s.table.childMoved pid group state).1 := by
    intro pid group state
    rw [childMoved]
    split
    · exact SameCounts.refl _
    · exact SameCounts.modify _ _ fun _ => ⟨rfl, rfl, rfl, rfl⟩
  rcases childStatus_cases s.table r.groupOf r.status with ⟨pid, _, hs, he⟩ | ⟨pid, hs, he⟩ | ⟨pid, exit, hpid, hx', he⟩ | ⟨hx', he⟩
  · rw [he]
    exact other (moved ..) (by rw [hs]; rfl)
  · rw [he]
    exact other (moved ..) (by rw [hs]; rfl)
  · rw [he]
    exact h.record_end hp hw hx hat (by rw [WaitStatus.ended?, hx', hpid]; rfl) _ _ n
  · rw [he]
    exact other (SameCounts.refl _) (by rw [WaitStatus.ended?, hx']; rfl)

/-- Every step keeps the books balanced. -/
theorem step {e : Event} (h : (ledger es).Balanced s) (hp : (ledger es).Proper) (hw : s.table.WellFormed)
    (hx : Exclusive es s) (ho : Orderly es e) (hs : Step s e s') : (ledger (e :: es)).Balanced s' := by
  have still := SameCounts.refl s.table
  cases hs with
  | move moves => exact h.move hp hx ho moves
  | change changes => exact h.change hp hw hx changes
  | lock at_ free => exact h.shell rfl still (Or.inl (by rw [at_]; rfl)) trivial
  | @unlock id c at_ =>
    refine h.shell rfl still (Or.inl (by rw [at_]; rfl)) ?_
    have := h.covered
    rw [at_] at this
    cases c
    · trivial
    · exact this
  | announce at_ => exact h.shell rfl still (Or.inl (by rw [at_]; rfl)) trivial
  | enter at_ free => exact h.collector rfl still ⟨nofun, nofun, nofun⟩ fun r _ => by rw [at_]; rfl
  | survey at_ =>
    refine h.collector rfl still ⟨fun g hg => ?_, nofun, nofun⟩ fun r _ => by rw [at_]; rfl
    obtain ⟨j, hj, rfl⟩ := List.mem_map.1 hg
    obtain ⟨l, hl, hlg, -⟩ := h.registry.tracked j (List.mem_filter.1 hj).1
    exact ⟨_, hl, hlg⟩
  | poll at_ result => exact h.poll hp hx at_ ho
  | record at_ recorded =>
    obtain rfl := congrArg Prod.fst recorded
    exact h.record hp hw hx at_ _
  | @conclude pgid work t n at_ ended =>
    have hnone : s.table.ofGroup? pgid = none :=
      (ofGroup?_eq_none_iff hw).2 fun j hj => h.no_job_of_concluded hx at_ hj
    rw [markFinished_of_none hw hnone] at ended
    obtain ⟨rfl, rfl⟩ := Prod.mk.inj ended
    have hv := h.pending.visited
    rw [at_] at hv
    exact h.collector rfl still ⟨fun g hg => hv g (List.mem_cons_of_mem _ hg), nofun, nofun⟩ fun r _ => by rw [at_]; rfl
  | inform at_ =>
    have hv := h.pending.visited
    rw [at_] at hv
    exact h.collector rfl still ⟨hv, nofun, nofun⟩ fun r _ => by rw [at_]; rfl
  | leave at_ => exact h.collector rfl still ⟨nofun, nofun, nofun⟩ fun r _ => by rw [at_]; rfl

/-- The books of a fresh session balance. -/
theorem start : (ledger []).Balanced {} := by
  refine ⟨⟨?_, ?_, ?_, ?_, ?_⟩, ⟨?_, ?_, ?_⟩, ?_, trivial⟩ <;> nofun

/-- With an orderly system, the books balance in every state that both threads lead to. -/
theorem of_reachable (h : Reachable Orderly es s) : (ledger es).Balanced s := by
  refine (Run.invariant (P := fun es s => (ledger es).Balanced s ∧ (ledger es).Proper ∧ Exclusive es s ∧ Disciplined s ∧
    Sound s) (fun hp ho hs => ?_) h ⟨start, Proper.start, Exclusive.start, Disciplined.start, Sound.start⟩).1
  obtain ⟨hb, hpr, hx, hd, hw⟩ := hp
  exact ⟨hb.step hpr hw.wellFormed hx ho hs, hpr.step ho, hx.step hw.wellFormed hd (freshGroups_of_orderly ho) hs,
    hd.step hs, hw.step hs⟩

/-- A step makes no job count more, and a job that was not there before it has a number that was not given before. -/
theorem live_step {e : Event} (h : L.Balanced s) (hw : s.table.WellFormed) (hx : Exclusive es s) (hs : Step s e s') {k : Job}
    (hk : k ∈ s'.table.jobs) : (∃ j ∈ s.table.jobs, j.id = k.id ∧ k.live ≤ j.live) ∨ s.table.lastId < k.id := by
  have modified : ∀ {id change}, k ∈ (s.table.modify id change).jobs → (∀ j, (change j).id = j.id ∧ (change j).live = j.live) →
      ∃ j ∈ s.table.jobs, j.id = k.id ∧ k.live ≤ j.live := by
    intro id change hk hsame
    have hmap : ((s.table.modify id change).jobs.map fun j => (j.id, j.live)) = s.table.jobs.map fun j => (j.id, j.live) :=
      map_modify _ fun j => by rw [(hsame j).1, (hsame j).2]
    obtain ⟨j, hj, he⟩ := List.mem_map.1 (hmap ▸ List.mem_map_of_mem hk)
    exact ⟨j, hj, (Prod.mk.inj he).1, Nat.le_of_eq (Prod.mk.inj he).2.symm⟩
  have marked : ∀ pgid status, k ∈ (s.table.markFinished pgid status).1.jobs →
      ∃ j ∈ s.table.jobs, j.id = k.id ∧ k.live ≤ j.live := by
    intro pgid status hk
    obtain ⟨j, hj, he⟩ := List.mem_map.1
      ((map_markFinished_sublist (fun j => (j.id, j.live)) pgid status).subset (List.mem_map_of_mem hk))
    exact ⟨j, hj, (Prod.mk.inj he).1, Nat.le_of_eq (Prod.mk.inj he).2.symm⟩
  cases hs with
  | @change e t p changes =>
    have hcov := h.covered
    revert changes hk
    generalize hat : s.shell = p₀
    rw [hat] at hcov
    intro changes hk
    cases changes with
    | enlist added =>
      obtain ⟨rfl, -⟩ := Prod.mk.inj added
      rcases mem_insert.1 hk with hk | rfl
      · exact Or.inl ⟨k, hk, rfl, Nat.le_refl _⟩
      · exact Or.inr (Nat.lt_succ_self _)
    | finish finished =>
      obtain rfl := congrArg Prod.fst finished
      exact Or.inl (marked _ _ hk)
    | @suspend _ f signal live id n tracked =>
      obtain rfl := congrArg Prod.fst tracked
      obtain ⟨l, ⟨hl, hg, hserves⟩, -, -, hle⟩ := hcov
      cases ho : s.table.ofGroup? f.group.pgid with
      | none =>
        rcases (mem_trackStopped_of_none hw ho).1 hk with hk | rfl
        · exact Or.inl ⟨k, hk, rfl, Nat.le_refl _⟩
        · exact Or.inr (Nat.lt_succ_self _)
      | some j =>
        obtain ⟨hj, hjg⟩ := ofGroup?_some ho
        rcases (mem_trackStopped_of_some hw ho).1 hk with ⟨hk, -⟩ | rfl
        · exact Or.inl ⟨k, hk, rfl, Nat.le_refl _⟩
        · cases hf : f.claimed with
          | none =>
            rw [hf] at hserves
            exact absurd (hjg.trans hg.symm) (no_job_of_unregistered h.registry hserves.2 hj)
          | some c =>
            rw [hf] at hserves
            obtain ⟨i, hi, hig, hlive⟩ := hserves
            obtain rfl := List.inj_on_of_nodup_map hx.distinct hi hj (hig.trans (hg.trans hjg.symm))
            exact Or.inl ⟨i, hi, rfl, hlive ▸ hle⟩
    | giveUp f cause =>
      obtain ⟨_, -, hfalse⟩ := hcov
      exact hfalse.elim
    | claim claimed =>
      obtain ⟨j, hj, rfl, rfl⟩ := claim?_some claimed
      exact Or.inl (modified hk fun _ => ⟨rfl, rfl⟩)
    | restore id c cause => exact Or.inl (modified hk fun _ => ⟨rfl, rfl⟩)
    | resume resumed =>
      obtain ⟨j, -, rfl, -⟩ := resume?_some resumed
      exact Or.inl (modified hk fun _ => ⟨rfl, rfl⟩)
  | record at_ recorded =>
    obtain rfl := congrArg Prod.fst recorded
    exact Or.inl (live_childStatus hw _ _ hk)
  | conclude at_ ended =>
    obtain rfl := congrArg Prod.fst ended
    exact Or.inl (marked _ _ hk)
  | move | lock | unlock | announce | enter | survey | poll | inform | leave => exact Or.inl ⟨k, hk, rfl, Nat.le_refl _⟩

end Ledger.Balanced

/-! ## The account -/

open Ledger HistoriesAux BothCollectorsAux

variable {es es' : List Event} {s s' : State}

/-- Over a run, no job comes to count more. -/
theorem live_of_run (h0 : Reachable Orderly es s) (h : Run Orderly es s es' s') {j : Job} (hj : j ∈ s.table.jobs) :
    ∀ k ∈ s'.table.jobs, k.id = j.id → k.live ≤ j.live := by
  induction h with
  | refl =>
    intro k hk hid
    exact Nat.le_of_eq (congrArg Job.live ((Sound.of_run h0 Sound.start).wellFormed.eq_of_id hk hj hid))
  | @step es' e s' s'' before assumed next ih =>
    intro k hk hid
    have hr := h0.trans before
    have hx := Exclusive.of_reachable (hr.weaken fun _ _ => freshGroups_of_orderly)
    have hb := Balanced.of_reachable hr
    rcases hb.live_step (Sound.of_run hr Sound.start).wellFormed hx next hk with ⟨i, hi, hik, hle⟩ | hlt
    · exact Nat.le_trans hle (ih i hi (hik.trans hid))
    · -- The number of the job was given before, so a job that has it now is no new one.
      obtain ⟨l, hl, -⟩ := (Balanced.of_reachable h0).registry.tracked j hj
      obtain ⟨new, rfl⟩ := before.history
      have hl' : (j.id, l) ∈ (ledger (new ++ es)).registered := by
        simp only [ledger, registeredIn, List.filterMap_append]
        exact List.mem_append_right _ hl
      have := hb.registry.issued _ hl'
      rw [hid] at hlt
      exact absurd hlt (Nat.not_lt.2 this)

/-- The account of both collectors, in three parts, for every order of the steps of the shell and the collector on an orderly
system.
1. Each job in the table is one of a pipeline that was registered, with its group and its members.
2. Where no status that was collected is still to be recorded, and the shell does not wait for its group, the job of a
   registered pipeline counts the members that neither thread has collected, at least one, and it is gone from the table exactly
   when all of them were collected.
3. Over every run from there, no job comes to count more. -/
theorem accounting_of_both (h : Reachable Orderly es s) :
    (∀ j ∈ s.table.jobs, ∃ l, (j.id, l) ∈ registeredIn es ∧ l.pgid = j.pgid ∧ l.pids = j.members) ∧
    (s.collector.isRecording = false → s.shell.isSettling = false →
      ∀ id l, (id, l) ∈ registeredIn es → s.shell.awaited? ≠ some l.pgid →
        (∀ j, s.table.find? id = some j → j.live = ((ledger es).left l).length ∧ 1 ≤ j.live) ∧
        (s.table.find? id = none ↔ (ledger es).left l = [])) ∧
    ∀ es' s', Run Orderly es s es' s' → ∀ j ∈ s.table.jobs, ∀ k ∈ s'.table.jobs, k.id = j.id → k.live ≤ j.live := by
  have hb := Balanced.of_reachable h
  have hw := (Sound.of_run h Sound.start).wellFormed
  refine ⟨hb.registry.tracked, fun hc hs id l hl hwait => ?_, fun es' s' hr j hj => live_of_run h hr hj⟩
  have hg : s.shell.waitGroup? ≠ some l.pgid := by
    cases hp : s.shell <;> rw [hp] at hs hwait <;> first | exact hwait | cases hs
  have hdue : (ledger es).due s.collector l = ((ledger es).left l).length := by
    rw [due, BalanceAux.owed_of_not_recording hc, Nat.add_zero]
  obtain ⟨hcount, hgone⟩ := hb.counted (id, l) hl hg
  rw [hdue] at hcount hgone
  refine ⟨fun j hj => ?_, fun hn => ?_, fun hn => ?_⟩
  · obtain ⟨hj, hid⟩ := (JobTable.find?_eq_some_iff hw).1 hj
    exact hcount j hj hid
  · exact List.length_eq_zero_iff.1 (hgone (JobTable.find?_eq_none_iff.1 hn))
  · rw [JobTable.find?_eq_none_iff]
    intro j hj hid
    obtain ⟨hlive, hpos⟩ := hcount j hj hid
    rw [hn] at hlive
    exact Nat.ne_of_gt hpos hlive

/-- Of three processes in the background, the collector takes the first, and the shell takes the second in the foreground before
the third one stops: the job counts one. -/
theorem accounting_of_both_for_three :
    ∃ es s, Reachable Orderly es s ∧ collectedIn es = [101, 100] ∧ s.shell.isSettling = false ∧
      ∃ j, s.table.find? 1 = some j ∧ j.live = 1 := by
  have r₀ : Reachable Orderly [] {} := .refl
  have r₁ := r₀.step (e := .launch ⟨100, [100, 101, 102]⟩ "a | b | c" true)
    ⟨List.not_mem_nil, by decide, by decide, nofun⟩ (.move (.launch ..))
  have r₂ := r₁.step (by trivial) (.change (.enlist rfl))
  have r₃ := r₂.step (by trivial) (.announce rfl)
  have r₄ := r₃.step (by trivial) (.move (.answer _))
  have r₅ := r₄.step (by trivial) (.enter rfl rfl)
  have r₆ := r₅.step (by trivial) (.survey rfl)
  have r₇ := r₆.step (e := .poll 100 (.ok (.exited 100 0)))
    ⟨_, List.mem_cons_self, rfl, by decide, by rintro _ ⟨⟩; decide⟩ (.poll rfl _)
  have r₈ := r₇.step (e := .record ⟨fun _ => none, .exited 100 0⟩) (by trivial) (.record rfl rfl)
  have r₉ := r₈.step (e := .poll 100 (.ok .stillAlive)) ⟨_, List.mem_cons_self, rfl, by decide, nofun⟩ (.poll rfl _)
  have r₁₀ := r₉.step (by trivial) (.leave rfl)
  have r₁₁ := r₁₀.step (by trivial) (.move (.foreground 1))
  have r₁₂ := r₁₁.step (by trivial) (.lock rfl rfl)
  have r₁₃ := r₁₂.step (by trivial) (.change (.claim rfl))
  have r₁₄ := r₁₃.step (by trivial) (.unlock rfl)
  have r₁₅ := r₁₄.step (by trivial) (.move (.continued ..))
  have r₁₆ := r₁₅.step (e := .await 100 (.ok (.exited 101 0)))
    ⟨_, List.mem_cons_self, rfl, by decide, by rintro _ ⟨⟩; decide⟩ (.move (.await rfl rfl))
  have r₁₇ := r₁₆.step (e := .settle 100 (.ok (.stopped 102 .tstp)))
    ⟨_, List.mem_cons_self, rfl, by decide, by rintro _ ⟨⟩; decide⟩ (.move (.settle rfl rfl))
  have r₁₈ := r₁₇.step (by trivial) (.change (.suspend rfl))
  obtain ⟨-, hcount, -⟩ := accounting_of_both r₁₈
  exact ⟨_, _, r₁₈, rfl, rfl, _, rfl, (hcount rfl rfl 1 ⟨100, [100, 101, 102]⟩ List.mem_cons_self nofun).1 _ rfl |>.1⟩

end JobShell
