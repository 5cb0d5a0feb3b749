import JobShell.Proofs.Threads.Exclusion
import JobShell.Proofs.Threads.Notices

/-!
# The order of the notices of a job

Between the change of a thread and its notice the other thread may make changes of its own and give notices of them. So the
notices of a job need not come in the order of its life (`notices_out_of_order`): it can be told of as finished before it is told
of as started.

`notices_in_order` says how far the order is kept. The invariant is `Timely`: it speaks of the notices that were given and of
the ones that a thread is about to give. A job that ended is in the table no more, and nothing new falls due for it
(`told_of_gone`); what is still told of it is what a thread was about to give by then.
-/

namespace JobShell

open NoticesAux

/-! ## What every run keeps -/

/-- The notices keep time with the table. Those that were given or are about to be tell of jobs that have a number, and none of
a job in the table tells of its end. A job that was started in the background was told of as such or is about to be, once. What
the shell is about to tell of a job in the background is an onset. The collector tells of no onset, and where it is about to
tell of an end, an onset is all that the shell can be about to tell of the job. -/
structure Timely (es : List Event) (s : State) : Prop where
  issued : ∀ n ∈ s.tidings, n.id ≤ s.table.lastId
  ended : ∀ n ∈ s.tidings, n.isEnd = true → ∀ j ∈ s.table.jobs, j.id ≠ n.id
  started : ∀ id l, .enlist id l ∈ es → ∃ n ∈ s.notices ++ s.shell.pending, n.id = id ∧ n.isStart = true
  once : ∀ n ∈ s.shell.pending, n.isStart = true → ∀ m ∈ s.notices, m.id = n.id → m.isStart = false
  place : ∀ n ∈ s.shell.pending, n.isOnset = false → ∀ j ∈ s.table.jobs, j.id = n.id → j.background = false
  late : ∀ n ∈ s.collector.pending, n.isOnset = false
  crossed : ∀ n ∈ s.collector.pending, n.isEnd = true → ∀ m ∈ s.shell.pending, m.id = n.id → m.isOnset = true

namespace Timely

variable {A : Assumption} {es : List Event} {e : Event} {s s' : State}

/-- In a fresh session there is nothing to tell. -/
theorem start : Timely [] {} := by
  refine ⟨?_, ?_, ?_, ?_, ?_, ?_, ?_⟩ <;> nofun

/-- The shell gives its notice. -/
theorem announced (h : Timely es s) {n : Notice} {reply : Reply} (at_ : s.shell = .announcing n reply) :
    Timely (.announce n :: es) { s with notices := s.notices ++ [n], shell := .answering reply } := by
  have hpending : s.shell.pending = [n] := by rw [at_]; rfl
  have htidings : (State.mk s.table s.lock (.answering reply) s.collector (s.notices ++ [n])).tidings = s.tidings := by
    rw [State.tidings, State.tidings, hpending]
    exact congrArg (· ++ s.collector.pending) (List.append_nil _)
  refine ⟨htidings ▸ h.issued, htidings ▸ h.ended, ?_, nofun, nofun, h.late, fun _ _ _ => nofun⟩
  intro id l he
  obtain ⟨m, hm, hid⟩ := h.started id l ((List.mem_cons.1 he).resolve_left nofun)
  rw [hpending] at hm
  exact ⟨m, List.mem_append_left _ hm, hid⟩

/-- The collector gives its notice. -/
theorem informed (h : Timely es s) {n : Notice} {work : List Pid} (at_ : s.collector = .informing n work) :
    Timely (.inform n :: es) { s with notices := s.notices ++ [n], collector := .visiting work } := by
  have hpending : s.collector.pending = [n] := by rw [at_]; rfl
  have htidings : ∀ m, m ∈ (State.mk s.table s.lock s.shell (.visiting work) (s.notices ++ [n])).tidings ↔ m ∈ s.tidings := by
    intro m
    rw [State.tidings, State.tidings, hpending]
    show m ∈ s.notices ++ [n] ++ s.shell.pending ++ [] ↔ _
    simp only [List.mem_append, List.not_mem_nil, or_false]
    exact or_right_comm
  refine ⟨fun m hm => h.issued m ((htidings m).1 hm), fun m hm => h.ended m ((htidings m).1 hm), ?_, ?_, h.place, nofun, nofun⟩
  · intro id l he
    obtain ⟨m, hm, hid⟩ := h.started id l ((List.mem_cons.1 he).resolve_left nofun)
    refine ⟨m, ?_, hid⟩
    rcases List.mem_append.1 hm with hm | hm
    · exact List.mem_append_left _ (List.mem_append_left _ hm)
    · exact List.mem_append_right _ hm
  · intro m hm hstart i hi hid
    rcases List.mem_append.1 hi with hi | hi
    · exact h.once m hm hstart i hi hid
    · have hlate := h.late i (hpending ▸ hi)
      by_contra hst
      rw [Notice.isOnset_of_isStart (Bool.eq_true_of_not_eq_false hst)] at hlate
      cases hlate

/-- Every step keeps the notices timely. -/
theorem step (h : Timely es s) (hw : s.table.WellFormed) (hs : Step s e s') : Timely (e :: es) s' := by
  cases tells_of_step hw hs with
  | announced event at_ after =>
    subst event after
    exact h.announced at_
  | informed event at_ after =>
    subst event after
    exact h.informed at_
  | shell due silent before after collector notices lastId jobs falls place enlisted =>
    have htidings : ∀ m, m ∈ s'.tidings ↔ m ∈ s.tidings ∨ m ∈ due := by
      intro m
      simp only [State.tidings, before, after, collector, notices, List.mem_append, List.append_nil, Option.mem_toList]
      tauto
    refine ⟨?_, ?_, ?_, ?_, ?_, ?_, ?_⟩
    · intro m hm
      rcases (htidings m).1 hm with hm | hm
      · exact (h.issued m hm).trans lastId
      · exact (falls m hm).issued
    · intro m hm hend k hk
      rcases (htidings m).1 hm with hm | hm
      · rcases jobs k hk with hlt | ⟨j, hj, hid⟩
        · exact Nat.ne_of_gt (Nat.lt_of_le_of_lt (h.issued m hm) hlt)
        · exact hid ▸ h.ended m hm hend j hj
      · exact (falls m hm).ended hend k hk
    · intro id l he
      rw [notices, after]
      rcases List.mem_cons.1 he with he | he
      · obtain ⟨m, hm, hid⟩ := enlisted id l he.symm
        exact ⟨m, List.mem_append_right _ (Option.mem_toList.2 hm), hid⟩
      · obtain ⟨m, hm, hid⟩ := h.started id l he
        rw [before, List.append_nil] at hm
        exact ⟨m, List.mem_append_left _ hm, hid⟩
    · intro m hm hstart i hi hid
      rw [after, Option.mem_toList] at hm
      rw [notices] at hi
      -- The started job is a new one, and nothing was told of it before.
      have hle := h.issued i (List.mem_append_left _ (List.mem_append_left _ hi))
      rw [hid] at hle
      exact absurd ((falls m hm).start hstart) (Nat.not_lt.2 hle)
    · intro m hm
      rw [after, Option.mem_toList] at hm
      exact place m hm
    · rw [collector]
      exact h.late
    · intro m hm hend i hi hid
      rw [collector] at hm
      rw [after, Option.mem_toList] at hi
      have hmem : m ∈ s.tidings := List.mem_append_right _ hm
      -- Nothing falls due for a job that ended.
      rcases (falls i hi).known with hlt | ⟨j, hj, hji⟩
      · rw [hid] at hlt
        exact absurd hlt (Nat.not_lt.2 (h.issued m hmem))
      · exact absurd (hji.trans hid) (h.ended m hmem hend j hj)
  | collector due silent before after shell notices lastId jobs falls late background enlisted =>
    have htidings : ∀ m, m ∈ s'.tidings ↔ m ∈ s.tidings ∨ m ∈ due := by
      intro m
      simp only [State.tidings, before, after, shell, notices, List.mem_append, List.append_nil, Option.mem_toList]
      exact Iff.rfl
    refine ⟨?_, ?_, ?_, ?_, ?_, ?_, ?_⟩
    · intro m hm
      rcases (htidings m).1 hm with hm | hm
      · exact lastId ▸ h.issued m hm
      · exact (falls m hm).issued
    · intro m hm hend k hk
      rcases (htidings m).1 hm with hm | hm
      · obtain ⟨j, hj, hid, -⟩ := jobs k hk
        exact hid ▸ h.ended m hm hend j hj
      · exact (falls m hm).ended hend k hk
    · intro id l he
      rw [notices, shell]
      exact h.started id l ((List.mem_cons.1 he).resolve_left fun he => enlisted id l he.symm)
    · rw [notices, shell]
      exact h.once
    · intro m hm hon k hk hid
      rw [shell] at hm
      obtain ⟨j, hj, hjid, hb⟩ := jobs k hk
      exact hb ▸ h.place m hm hon j hj (hjid.trans hid)
    · intro m hm
      rw [after, Option.mem_toList] at hm
      exact late m hm
    · intro m hm hend i hi hid
      rw [after, Option.mem_toList] at hm
      rw [shell] at hi
      -- The job that ends is in the background, so what the shell is about to tell of it is an onset.
      obtain ⟨j, hj, hjid, hb⟩ := background m hm hend
      by_contra hon
      have := h.place i hi (Bool.eq_false_iff.2 hon) j hj (hjid.trans hid.symm)
      rw [hb] at this
      cases this

/-- Every run keeps the notices timely. -/
theorem of_reachable (h : Reachable A es s) : Timely es s := by
  have := h.invariant (P := fun es s => Timely es s ∧ Sound s)
    (fun hp _ hs => ⟨hp.1.step hp.2.wellFormed hs, hp.2.step hs⟩) ⟨start, Sound.start⟩
  exact this.1

end Timely

namespace NoticeOrderAux

variable {A : Assumption} {es new : List Event} {e : Event} {s s' s'' : State} {n m : Notice} {id : JobId}

/-! ### A job that ended -/

/-- The notices of a job with one more event. -/
theorem toldOf_cons (id : JobId) (e : Event) (es : List Event) :
    toldOf id (e :: es) = toldOf id es ++ e.told?.toList.filter (·.id == id) := by
  cases he : e.told? <;> simp [toldOf, he]

/-- Nothing falls due any more for a job that is gone: what is told of it by a step was about to be told, and the rest still is. -/
theorem told_of_gone (h : Tells s e s') (hid : id ≤ s.table.lastId) (hgone : ∀ j ∈ s.table.jobs, j.id ≠ id) :
    (e.told?.toList.filter (·.id == id) ++ s'.pendingOf id).Perm (s.pendingOf id) ∧
      id ≤ s'.table.lastId ∧ ∀ j ∈ s'.table.jobs, j.id ≠ id := by
  -- The notices that fall due are of other jobs.
  have other : ∀ {due : Option Notice}, (∀ n ∈ due, FallsDue s.table s'.table n) → due.toList.filter (·.id == id) = [] := by
    intro due falls
    refine List.filter_eq_nil_iff.2 fun n hn heq => ?_
    obtain rfl := beq_iff_eq.1 heq
    rcases (falls n (Option.mem_toList.1 hn)).known with hlt | ⟨j, hj, hjid⟩
    · exact absurd hid (Nat.not_le.2 hlt)
    · exact hgone j hj hjid
  cases h with
  | announced event at_ after =>
    subst event after
    refine ⟨?_, hid, hgone⟩
    rw [State.pendingOf, State.pendingOf, at_]
    exact List.Perm.of_eq (List.filter_append ..).symm
  | informed event at_ after =>
    subst event after
    refine ⟨?_, hid, hgone⟩
    rw [State.pendingOf, State.pendingOf, at_, List.filter_append, List.filter_append]
    exact (List.perm_append_comm.trans (List.Perm.of_eq (by simp [CollectorPoint.pending, Event.told?])))
  | shell due silent before after collector notices lastId jobs falls =>
    refine ⟨?_, hid.trans lastId, fun k hk => ?_⟩
    · rw [State.pendingOf, State.pendingOf, silent, before, after, collector, List.filter_append, other falls]
      exact List.Perm.refl _
    · rcases jobs k hk with hlt | ⟨j, hj, hjid⟩
      · exact Nat.ne_of_gt (Nat.lt_of_le_of_lt hid hlt)
      · exact hjid ▸ hgone j hj
  | collector due silent before after shell notices lastId jobs falls =>
    refine ⟨?_, lastId ▸ hid, fun k hk => ?_⟩
    · rw [State.pendingOf, State.pendingOf, silent, before, after, shell, List.filter_append, List.filter_append, other falls]
      exact List.Perm.refl _
    · obtain ⟨j, hj, hjid, -⟩ := jobs k hk
      exact hjid ▸ hgone j hj

/-- Over a run after the job is gone, it is told of it what was about to be told. -/
theorem told_of_run (h0 : Sound s) (hid : id ≤ s.table.lastId) (hgone : ∀ j ∈ s.table.jobs, j.id ≠ id)
    (h : Run A es s (new ++ es) s') : (toldOf id new ++ s'.pendingOf id).Perm (s.pendingOf id) := by
  have hall := h.since (P := fun new s' => (toldOf id new ++ s'.pendingOf id).Perm (s.pendingOf id) ∧
    id ≤ s'.table.lastId ∧ ∀ j ∈ s'.table.jobs, j.id ≠ id) ⟨List.Perm.refl _, hid, hgone⟩ ?_
  · exact hall.1
  · rintro new e s' s'' before ⟨hperm, hid', hgone'⟩ next
    obtain ⟨hstep, hrest⟩ := told_of_gone (tells_of_step (Sound.of_run before h0).wellFormed next) hid' hgone'
    refine ⟨?_, hrest⟩
    rw [toldOf_cons, List.append_assoc]
    exact (List.Perm.append_left _ hstep).trans hperm

/-- Of one notice at most, that one or none is given first. -/
theorem eq_single_of_perm {k r l : List Notice} (hp : (k ++ r).Perm l) (hl : l.length ≤ 1) : k = [] ∨ ∃ m ∈ l, k = [m] := by
  cases k with
  | nil => exact Or.inl rfl
  | cons m k =>
    have hlen := hp.length_eq
    simp only [List.cons_append, List.length_cons, List.length_append] at hlen
    obtain rfl : k = [] := List.length_eq_zero_iff.1 (by omega)
    exact Or.inr ⟨m, hp.subset List.mem_cons_self, rfl⟩

/-- The shell is about to give one notice at most. -/
theorem length_pending_shell (p : ShellPoint) : p.pending.length ≤ 1 := by
  cases p <;> first | exact Nat.zero_le _ | exact Nat.le_refl _

/-- The collector is about to give one notice at most. -/
theorem length_pending_collector (c : CollectorPoint) : c.pending.length ≤ 1 := by
  cases c <;> first | exact Nat.zero_le _ | exact Nat.le_refl _

/-- What the shell is about to give. -/
theorem announcing_of_pending {p : ShellPoint} (h : m ∈ p.pending) : ∃ reply, p = .announcing m reply := by
  cases p with
  | announcing n reply =>
    obtain rfl := List.mem_singleton.1 h
    exact ⟨reply, rfl⟩
  | _ => exact absurd h List.not_mem_nil

/-- What the collector is about to give. -/
theorem informing_of_pending {c : CollectorPoint} (h : m ∈ c.pending) : ∃ work, c = .informing m work := by
  cases c with
  | informing n work =>
    obtain rfl := List.mem_singleton.1 h
    exact ⟨work, rfl⟩
  | _ => exact absurd h List.not_mem_nil

/-- The thread that gives a notice was about to give it. -/
theorem pending_of_told (hw : s.table.WellFormed) (hs : Step s e s') (he : e.told? = some n) :
    (e = .announce n ∧ n ∈ s.shell.pending ∧ s'.shell.pending = [] ∧ s'.collector = s.collector ∧ s'.table = s.table) ∨
    (e = .inform n ∧ n ∈ s.collector.pending ∧ s'.collector.pending = [] ∧ s'.shell = s.shell ∧ s'.table = s.table) := by
  cases tells_of_step hw hs with
  | announced event at_ after =>
    subst event after
    obtain rfl := Option.some.inj he
    exact Or.inl ⟨rfl, by rw [at_]; exact List.mem_singleton_self _, rfl, rfl, rfl⟩
  | informed event at_ after =>
    subst event after
    obtain rfl := Option.some.inj he
    exact Or.inr ⟨rfl, by rw [at_]; exact List.mem_singleton_self _, rfl, rfl, rfl⟩
  | shell due silent | collector due silent =>
    rw [silent] at he
    cases he

/-- After the notice of an end, what the other thread was about to give is all that is told of the job. -/
theorem told_after_end (h : Reachable A es s) (hs : Step s e s') (he : e.told? = some n) (hend : n.isEnd = true)
    (hr : Run A (e :: es) s' (new ++ e :: es) s'') :
    toldOf n.id new = [] ∨ ∃ m, toldOf n.id new = [m] ∧ m.id = n.id ∧
      ((e = .inform n ∧ n ∈ s.collector.pending ∧ m ∈ s.shell.pending) ∨
        (e = .announce n ∧ n ∈ s.shell.pending ∧ m ∈ s.collector.pending)) := by
  have hsound := Sound.of_run h Sound.start
  have ht := Timely.of_reachable h
  -- What the notice tells of has a number and is gone, so nothing falls due for it in the run.
  have rest : n ∈ s.tidings → s'.table = s.table → (toldOf n.id new ++ s''.pendingOf n.id).Perm (s'.pendingOf n.id) := by
    intro hn htable
    refine told_of_run (hsound.step hs) ?_ ?_ hr
    · rw [htable]
      exact ht.issued n hn
    · rw [htable]
      exact ht.ended n hn hend
  rcases pending_of_told hsound.wellFormed hs he with ⟨event, hn, hsh, hco, htable⟩ | ⟨event, hn, hco, hsh, htable⟩
  · have hperm := rest (List.mem_append_left _ (List.mem_append_right _ hn)) htable
    rw [State.pendingOf, State.pendingOf, hsh, hco, List.nil_append] at hperm
    refine (eq_single_of_perm hperm ((List.length_filter_le ..).trans (length_pending_collector _))).imp_right ?_
    rintro ⟨m, hm, h1⟩
    obtain ⟨hm, hid⟩ := List.mem_filter.1 hm
    exact ⟨m, h1, beq_iff_eq.1 hid, Or.inr ⟨event, hn, hm⟩⟩
  · have hperm := rest (List.mem_append_right _ hn) htable
    rw [State.pendingOf, State.pendingOf, hsh, hco, List.append_nil] at hperm
    refine (eq_single_of_perm hperm ((List.length_filter_le ..).trans (length_pending_shell _))).imp_right ?_
    rintro ⟨m, hm, h1⟩
    obtain ⟨hm, hid⟩ := List.mem_filter.1 hm
    exact ⟨m, h1, beq_iff_eq.1 hid, Or.inl ⟨event, hn, hm⟩⟩

end NoticeOrderAux

/-! ## Ends are told by the collector -/

/-- What the shell has in hand is in the foreground, and the shell is about to tell of no end. -/
structure Subdued (s : State) : Prop where
  held : ∀ g, s.shell.group? = some g → ∀ j ∈ s.table.jobs, j.pgid = g → j.background = false
  silent : ∀ n ∈ s.shell.pending, n.isEnd = false

namespace Subdued

open NoticesAux JobTable ExclusionAux

variable {A : Assumption} {es : List Event} {e : Event} {s s' : State} {t : JobTable} {p : ShellPoint}

/-- A fresh session has nothing in hand. -/
theorem start : Subdued {} := ⟨nofun, nofun⟩

/-- The jobs keep their groups and their places, with the same group in hand or none. -/
theorem mono (h : Subdued s)
    (ht : (s'.table.jobs.map fun j => (j.pgid, j.background)).Sublist (s.table.jobs.map fun j => (j.pgid, j.background)))
    (hg : s'.shell.group? = none ∨ s'.shell.group? = s.shell.group?) (hn : ∀ n ∈ s'.shell.pending, n.isEnd = false) :
    Subdued s' := by
  refine ⟨fun g hs' j hj he => ?_, hn⟩
  rcases hg with hnone | hsame
  · rw [hnone] at hs'
    cases hs'
  · obtain ⟨k, hk, hkj⟩ := List.mem_map.1 (ht.subset (List.mem_map_of_mem hj))
    obtain ⟨hkg, hkb⟩ := Prod.mk.inj hkj
    exact hkb ▸ h.held g (hsame ▸ hs') k hk (hkg.trans he)

/-- The shell changes the table: a claimed job is put in the foreground, and the job of a group that ends was there. -/
theorem change (h : Subdued s) (hw : s.table.WellFormed) (hx : Exclusive es s) (hc : s.shell.Changes s.table e t p) :
    Subdued { s with table := t, shell := p } := by
  obtain ⟨table, lock, shell, collector, notices⟩ := s
  dsimp only at hw hc h
  have none_held : p.group? = none → (∀ n ∈ p.pending, n.isEnd = false) →
      Subdued { table := t, lock, shell := p, collector, notices } := fun hg hn =>
    ⟨fun g hs => absurd (hg.symm.trans hs) nofun, hn⟩
  cases hc with
  | enlist added => exact none_held rfl (by rintro n hn; rw [List.mem_singleton.1 hn]; rfl)
  | @finish _ f status due finished =>
    refine none_held (group?_tell _ _) fun n hn => ?_
    rw [pending_tell_shell, Option.mem_toList] at hn
    obtain rfl := congrArg Prod.snd finished
    obtain ⟨-, -, j, hj, -, hg, hb⟩ := fallsDue_markFinished hw hn
    rw [h.held f.group.pgid rfl j hj hg] at hb
    cases hb
  | @suspend _ f signal live id due tracked =>
    obtain ⟨rfl, hid⟩ := Prod.mk.inj tracked
    obtain rfl : _ = due := congrArg Prod.snd hid
    refine none_held (group?_tell _ _) fun n hn => ?_
    rw [pending_tell_shell, Option.mem_toList] at hn
    exact (fallsDue_trackStopped hw hn).2.1
  | giveUp f cause => exact none_held rfl nofun
  | @claim _ id c claimed =>
    obtain ⟨j, hj, rfl, rfl⟩ := claim?_some claimed
    refine ⟨fun g hg k hk hkg => ?_, nofun⟩
    obtain rfl := Option.some.inj hg
    obtain ⟨i, hi, rfl⟩ := List.mem_map.1 hk
    by_cases hid : (i.id == id) = true
    · rw [if_pos hid]
    · rw [if_neg hid] at hkg
      -- Another job of the group would be the claimed one, whose id this is not.
      obtain rfl := List.inj_on_of_nodup_map hx.distinct hi (List.mem_of_find?_eq_some hj) hkg
      exact absurd (List.find?_some hj) hid
  | restore id c cause => exact none_held rfl nofun
  | resume resumed =>
    obtain ⟨j, -, rfl, rfl⟩ := resume?_some resumed
    exact none_held rfl (by rintro n hn; rw [List.mem_singleton.1 hn]; rfl)

/-- Every step keeps the shell from telling of ends. -/
theorem step (h : Subdued s) (hw : s.table.WellFormed) (hx : Exclusive es s) (ha : FreshGroups es e) (hs : Step s e s') :
    Subdued s' := by
  have same := List.Sublist.refl (s.table.jobs.map fun j => (j.pgid, j.background))
  cases hs with
  | @move _ p moves =>
    have hsilent : ∀ n ∈ p.pending, n.isEnd = false := by
      rw [(pending_of_moves moves).2.1]
      exact nofun
    rcases moves_group moves with hnone | ⟨hsame, -⟩ | ⟨l, command, background, rfl, hl⟩
    · exact h.mono same (Or.inl hnone) hsilent
    · exact h.mono same (Or.inr hsame) hsilent
    · -- No job has the group of what is launched.
      refine ⟨fun g hg j hj he => ?_, hsilent⟩
      obtain rfl := Option.some.inj (hl.symm.trans hg)
      exact absurd (he ▸ hx.known j hj) ha
  | change changes => exact h.change hw hx changes
  | lock at_ free => exact h.mono same (Or.inl rfl) nofun
  | @unlock id c at_ =>
    refine h.mono same (Or.inr ?_) ?_
    · rw [at_]
      exact group?_afterClaim id c
    · cases c <;> exact nofun
  | announce at_ => exact h.mono same (Or.inl rfl) nofun
  | record at_ recorded =>
    obtain rfl := congrArg Prod.fst recorded
    exact h.mono (map_childStatus_sublist _ (fun _ _ => rfl) (fun _ _ => rfl) _ _) (Or.inr rfl) h.silent
  | conclude at_ ended =>
    obtain rfl := congrArg Prod.fst ended
    exact h.mono (map_markFinished_sublist _ _ _) (Or.inr rfl) h.silent
  | enter | survey | poll | inform | leave => exact h.mono same (Or.inr rfl) h.silent

/-- Every run keeps the shell from telling of ends. -/
theorem of_reachable (h : Reachable FreshGroups es s) : Subdued s := by
  have := h.invariant (P := fun es s => (Subdued s ∧ Exclusive es s) ∧ Disciplined s ∧ Sound s)
    (fun hp ha hs => ⟨⟨hp.1.1.step hp.2.2.wellFormed hp.1.2 ha hs, hp.1.2.step hp.2.2.wellFormed hp.2.1 ha hs⟩,
      hp.2.1.step hs, hp.2.2.step hs⟩) ⟨⟨start, Exclusive.start⟩, Disciplined.start, Sound.start⟩
  exact this.1.1

end Subdued

/-! ## The order of the notices -/

namespace NoticeOrderAux

variable {A : Assumption} {es new : List Event} {e : Event} {s s' s'' : State} {n m : Notice} {id : JobId} {l : Launched}

/-- What a run told of stays told. -/
theorem notices_of_run (h : Run A es s new s') : s.notices ⊆ s'.notices := by
  induction h with
  | refl => exact List.Subset.refl _
  | step _ _ hs ih =>
    refine List.Subset.trans ih ?_
    cases hs with
    | announce | inform => exact List.subset_append_left ..
    | _ => exact List.Subset.refl _

/-- The notice that a step gives is among those given after it. -/
theorem mem_notices_of_told (hs : Step s e s') (he : e.told? = some n) : n ∈ s'.notices := by
  cases hs with
  | announce | inform =>
    obtain rfl := Option.some.inj he
    exact List.mem_append_right _ (List.mem_singleton_self _)
  | move moves =>
    rw [(pending_of_moves moves).2.2.1] at he
    cases he
  | change changes =>
    generalize s.shell = p at changes
    cases changes <;> cases he
  | _ => cases he

/-- A job that was told of is not registered any more. -/
theorem not_enlisted_of_told (h : Reachable A es s) (hn : n ∈ s.notices) (hr : Run A es s (new ++ es) s') :
    .enlist n.id l ∉ new := by
  refine hr.since (P := fun new _ => .enlist n.id l ∉ new) List.not_mem_nil ?_
  intro new e s' s'' before hnew hs
  refine fun he => (List.mem_cons.1 he).elim (fun he => ?_) hnew
  have hmem : n ∈ s'.tidings := List.mem_append_left _ (List.mem_append_left _ (notices_of_run before hn))
  have hle := (Timely.of_reachable (h.trans before)).issued n hmem
  cases tells_of_step (Sound.of_run (h.trans before) Sound.start).wellFormed hs with
  | announced event => exact absurd (he.trans event) nofun
  | informed event => exact absurd (he.trans event) nofun
  | shell due _ _ _ _ _ _ _ falls _ enlisted =>
    obtain ⟨i, hi, hid, hstart⟩ := enlisted _ _ he.symm
    exact absurd (hid ▸ (falls i hi).start hstart) (Nat.not_lt.2 hle)
  | collector _ _ _ _ _ _ _ _ _ _ _ enlisted => exact enlisted _ _ he.symm

/-- What was told by the time a notice of a job is given that was launched in the background. -/
theorem told_after_start (h : Reachable A es s) (hs : Step s e s') (he : e.told? = some n) (hl : .enlist n.id l ∈ es) :
    (n.isStart = true ∧ ∀ m ∈ s.notices, m.id = n.id → m.isStart = false) ∨
      n.isStart = false ∧ ((∃ m ∈ s.notices, m.id = n.id ∧ m.isStart = true) ∨
        e = .inform n ∧ ∃ m reply, s.shell = .announcing m reply ∧ m.id = n.id ∧ m.isStart = true) := by
  have ht := Timely.of_reachable h
  obtain ⟨m, hm, hid, hstart⟩ := ht.started n.id l hl
  rcases pending_of_told (Sound.of_run h Sound.start).wellFormed hs he with ⟨event, hn, -⟩ | ⟨event, hn, -⟩
  · cases hst : n.isStart with
    | true => exact Or.inl ⟨rfl, ht.once n hn hst⟩
    | false =>
      refine Or.inr ⟨rfl, Or.inl ⟨m, (List.mem_append.1 hm).resolve_right fun hp => ?_, hid, hstart⟩⟩
      -- The shell is about to give one notice, and that is no start.
      obtain ⟨reply, hp⟩ := announcing_of_pending hp
      rw [hp] at hn
      rw [List.mem_singleton.1 hn, hstart] at hst
      cases hst
  · have hst : n.isStart = false := by
      by_contra hst
      have := ht.late n hn
      rw [Notice.isOnset_of_isStart (Bool.eq_true_of_not_eq_false hst)] at this
      cases this
    refine Or.inr ⟨hst, (List.mem_append.1 hm).imp (fun hm => ⟨m, hm, hid, hstart⟩) fun hm => ?_⟩
    obtain ⟨reply, hp⟩ := announcing_of_pending hm
    exact ⟨event, m, reply, hp, hid, hstart⟩

end NoticeOrderAux

open NoticeOrderAux

/-- The notices of a job come in the order of its life, but for what a thread was about to give when the other one gave a
notice. For every order of the steps of the shell and the collector, when a notice is given:
1. If its job is launched in the background at any time, it was by then. The notice is the only one of its start; or that was
given before; or the collector gives the notice, and the shell is just about to give that of the start.
2. After the notice of an end at most one more is given of the job, which tells of no end. If the collector gave the notice of
the end, it is the onset that the shell was about to tell of. If the shell gave it, it is what the collector was about to tell
of.
3. Where no group id is used twice, the collector gives the notice of an end. -/
theorem notices_in_order {A : Assumption} {es : List Event} {e : Event} {s s' : State} {n : Notice} (h : Reachable A es s)
    (ha : A es e) (hs : Step s e s') (he : e.told? = some n) :
    (∀ new s'' l, Run A (e :: es) s' (new ++ e :: es) s'' → .enlist n.id l ∈ new ++ e :: es →
      .enlist n.id l ∈ es ∧
      ((n.isStart = true ∧ ∀ m ∈ s.notices, m.id = n.id → m.isStart = false) ∨
        n.isStart = false ∧ ((∃ m ∈ s.notices, m.id = n.id ∧ m.isStart = true) ∨
          e = .inform n ∧ ∃ m reply, s.shell = .announcing m reply ∧ m.id = n.id ∧ m.isStart = true))) ∧
    (n.isEnd = true → ∀ new s'', Run A (e :: es) s' (new ++ e :: es) s'' →
      toldOf n.id new = [] ∨ ∃ m, toldOf n.id new = [m] ∧ m.isEnd = false ∧
        ((e = .inform n ∧ m.isOnset = true ∧ ∃ reply, s.shell = .announcing m reply) ∨
          e = .announce n ∧ m.isOnset = false ∧ ∃ work, s.collector = .informing m work)) ∧
    ((∀ es e, A es e → FreshGroups es e) → n.isEnd = true → e = .inform n) := by
  have ht := Timely.of_reachable h
  refine ⟨fun new s'' l hr hl => ?_, fun hend new s'' hr => ?_, fun hfresh hend => ?_⟩
  · have hes : .enlist n.id l ∈ es := by
      rcases List.mem_append.1 hl with hl | hl
      · exact absurd hl (not_enlisted_of_told (h.step ha hs) (mem_notices_of_told hs he) hr)
      · rcases List.mem_cons.1 hl with rfl | hl
        · cases he
        · exact hl
    exact ⟨hes, told_after_start h hs he hes⟩
  · refine (told_after_end h hs he hend hr).imp_right ?_
    rintro ⟨m, htold, hid, ⟨event, hn, hm⟩ | ⟨event, hn, hm⟩⟩
    · have honset := ht.crossed n hn hend m hm hid
      exact ⟨m, htold, Notice.isEnd_of_isOnset honset, Or.inl ⟨event, honset, announcing_of_pending hm⟩⟩
    · refine ⟨m, htold, ?_, Or.inr ⟨event, ht.late m hm, informing_of_pending hm⟩⟩
      by_contra hmend
      -- Of the two notices that are due one is an onset, and this is an end.
      have := ht.crossed m hm (Bool.eq_true_of_not_eq_false hmend) n hn hid.symm
      rw [Notice.isOnset_of_isEnd hend] at this
      cases this
  · rcases pending_of_told (Sound.of_run h Sound.start).wellFormed hs he with ⟨-, hn, -⟩ | ⟨event, -⟩
    · rw [(Subdued.of_reachable (h.weaken hfresh)).silent n hn] at hend
      cases hend
    · exact event

namespace NoticeOrderAux

/-- The end of a job launched in the background is collected before its start is told. -/
def overtaken : List Event :=
  [.record ⟨fun _ => none, .exited 100 0⟩, .poll 100 (.ok (.exited 100 0)), .survey, .enter, .enlist 1 ⟨100, [100]⟩,
    .launch ⟨100, [100]⟩ "true" true]

/-- The shell is about to tell of the start of a job, and the collector of its end. -/
def crossing : State where
  table := ⟨1, []⟩
  lock := some .collector
  shell := .announcing (.started 1 100 "true") (.launched 1)
  collector := .informing (.finished 1 "true" (.exited 0)) [100]

/-- An orderly system leads there. -/
theorem reachable_crossing : Reachable Orderly overtaken crossing := by
  have r₀ : Reachable Orderly [] {} := .refl
  have r₁ := r₀.step (e := .launch ⟨100, [100]⟩ "true" true) ⟨List.not_mem_nil, by decide, by decide, nofun⟩ (.move (.launch ..))
  have r₂ := r₁.step (by trivial) (.change (.enlist rfl))
  have r₃ := r₂.step (by trivial) (.enter rfl rfl)
  have r₄ := r₃.step (by trivial) (.survey rfl)
  have r₅ := r₄.step (e := .poll 100 (.ok (.exited 100 0)))
    ⟨⟨100, [100]⟩, by decide, rfl, by decide, by rintro _ ⟨⟩; decide⟩ (.poll rfl _)
  exact r₅.step (e := .record ⟨fun _ => none, .exited 100 0⟩) (by trivial) (.record rfl rfl)

end NoticeOrderAux

/-- The collector tells of the end of a job while the shell is about to tell of its start: that is told of it then, or nothing. -/
theorem notices_in_order_of_an_early_end :
    ∃ es s e s', Reachable Orderly es s ∧ Step s e s' ∧ e = .inform (.finished 1 "true" (.exited 0)) ∧
      (∃ m reply, s.shell = .announcing m reply ∧ m.isStart = true) ∧
      ∀ new s'', Run Orderly (e :: es) s' (new ++ e :: es) s'' → toldOf 1 new = [] ∨ toldOf 1 new = [.started 1 100 "true"] := by
  have hs : Step crossing (.inform (.finished 1 "true" (.exited 0))) _ := .inform rfl
  obtain ⟨hstart, hend, -⟩ := notices_in_order (n := .finished 1 "true" (.exited 0)) reachable_crossing (by trivial) hs rfl
  refine ⟨_, _, _, _, reachable_crossing, hs, rfl, ?_, fun new s'' hr => ?_⟩
  · have hlast := (hstart [] _ ⟨100, [100]⟩ .refl (by simp [overtaken, Notice.id])).2
    rcases hlast with ⟨h, -⟩ | ⟨-, ⟨m, hm, -⟩ | ⟨-, m, reply, hp, -, hm⟩⟩
    · cases h
    · cases hm
    · exact ⟨m, reply, hp, hm⟩
  · refine (hend rfl new s'' hr).imp_right ?_
    rintro ⟨m, htold, -, ⟨-, -, reply, hp⟩ | ⟨hn, -⟩⟩
    · cases hp
      exact htold
    · cases hn

/-- The notices of a job do not always come in the order of its life:
1. The start is told after the end.
2. The job is told of as resumed after its end. -/
theorem notices_out_of_order :
    (∃ es s, Reachable Orderly es s ∧ s.notices = [.finished 1 "true" (.exited 0), .started 1 100 "true"]) ∧
      ∃ es s, Reachable Orderly es s ∧
        s.notices = [.started 1 100 "true", .finished 1 "true" (.exited 0), .resumed 1 "true"] := by
  constructor
  · have r₁ := reachable_crossing.step (by trivial) (.inform rfl)
    exact ⟨_, _, r₁.step (by trivial) (.announce rfl), rfl⟩
  · have r₀ : Reachable Orderly [] {} := .refl
    have r₁ := r₀.step (e := .launch ⟨100, [100]⟩ "true" true) ⟨List.not_mem_nil, by decide, by decide, nofun⟩ (.move (.launch ..))
    have r₂ := r₁.step (by trivial) (.change (.enlist rfl))
    have r₃ := r₂.step (by trivial) (.announce rfl)
    have r₄ := r₃.step (by trivial) (.move (.answer _))
    have r₅ := r₄.step (e := .background 1) (by trivial) (.move (.background rfl))
    have r₆ := r₅.step (e := .signal 100 .cont (.ok ())) (by trivial) (.move (.signalled ..))
    have r₇ := r₆.step (by trivial) (.change (.resume rfl))
    have r₈ := r₇.step (by trivial) (.enter rfl rfl)
    have r₉ := r₈.step (by trivial) (.survey rfl)
    have r₁₀ := r₉.step (e := .poll 100 (.ok (.exited 100 0)))
      ⟨⟨100, [100]⟩, by decide, rfl, by decide, by rintro _ ⟨⟩; decide⟩ (.poll rfl _)
    have r₁₁ := r₁₀.step (e := .record ⟨fun _ => none, .exited 100 0⟩) (by trivial) (.record rfl rfl)
    have r₁₂ := r₁₁.step (by trivial) (.inform rfl)
    exact ⟨_, _, r₁₂.step (by trivial) (.announce rfl), rfl⟩

end JobShell
