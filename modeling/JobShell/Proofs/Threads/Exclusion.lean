import JobShell.Proofs.Threads.Histories
import JobShell.Proofs.Threads.Invariants
import Mathlib.Data.List.Nodup

/-!
# The collector leaves foreground groups alone

`foreground_left_alone`: while the shell waits for a group, no pass of the collector has anything to do with that group,
whatever order the two threads take their steps in. Only group ids are assumed not to be used twice.

A pass works from a survey it made earlier, so it is not enough that a claimed job is passed over by the surveys to come. The
invariant `Exclusive` speaks of the group that the shell has in hand (`ShellPoint.group?`), from the launch or the claim on: no
pass has it left to visit, and no job of it is open to a survey. At a launch the group is new, so no job and no survey can
have it. At a claim the shell has the lock, so no pass is on.
-/

namespace JobShell

namespace ShellPoint

/-- The group that the shell has in hand. -/
def group? : ShellPoint → Option Pid
  | .launched l .. => some l.pgid
  | .waiting f _ | .settling f _ => some f.group.pgid
  | .unlocking _ c => c.map (·.group.pgid)
  | .continuing _ c | .restoring _ c _ => some c.group.pgid
  | _ => none

/-- The group in hand was never registered. -/
def isUntracked : ShellPoint → Bool
  | .launched .. => true
  | .waiting f _ | .settling f _ => f.claimed.isNone
  | _ => false

end ShellPoint

/-- An event that ends the wait for this group. -/
def Event.endsWait (pgid : Pid) : Event → Bool
  | .settle g _ | .complete g => g == pgid
  | _ => false

/-- No two jobs have one group, all groups were launched, and a group that the shell has in hand is one that no pass has left
to visit and no job opens to a survey. -/
structure Exclusive (es : List Event) (s : State) : Prop where
  distinct : (s.table.jobs.map (·.pgid)).Nodup
  known : ∀ j ∈ s.table.jobs, j.pgid ∈ groupsIn es
  visited : ∀ g ∈ s.collector.work, g ∈ groupsIn es
  held : ∀ g, s.shell.group? = some g → g ∈ groupsIn es
  unvisited : ∀ g, s.shell.group? = some g → g ∉ s.collector.work
  closed : ∀ g, s.shell.group? = some g → ∀ j ∈ s.table.jobs, j.pgid = g → j.waited = true ∧ s.shell.isUntracked = false

namespace ExclusionAux

open JobTable HistoriesAux

variable {es : List Event} {e : Event} {s s' : State} {t t' : JobTable} {p p' : ShellPoint} {g : Pid}

/-- After a notice nothing is in hand. -/
@[simp]
theorem group?_tell (n : Option Notice) (reply : Reply) : (ShellPoint.tell n reply).group? = none := by
  cases n <;> rfl

/-- The claim made under the lock is in hand after it. -/
theorem group?_afterClaim (id : JobId) (c : Option Claim) :
    (ShellPoint.afterClaim id c).group? = (ShellPoint.unlocking id c).group? := by
  cases c <;> rfl

/-- Where the shell just moves on, it lets a group go, keeps it in hand as it is, or launches it. -/
theorem moves_group (h : p.Moves t e p') :
    p'.group? = none ∨ (p'.group? = p.group? ∧ p'.isUntracked = p.isUntracked) ∨
      ∃ l command background, e = .launch l command background ∧ p'.group? = some l.pgid := by
  cases h with
  | launch l command background => exact Or.inr (Or.inr ⟨l, command, background, rfl, rfl⟩)
  | begin | await | settle | complete | continued | notContinued => exact Or.inr (Or.inl ⟨rfl, rfl⟩)
  | killed id pgid signal revive => exact Or.inl (by cases revive <;> rfl)
  | _ => exact Or.inl rfl

/-- Where the shell changes the table, the groups of the jobs are some of those before, or the one in hand is added to them. -/
theorem changes_groups (hw : t.WellFormed) (hc : p.Changes t e t' p')
    (hfree : ∀ g, p.group? = some g → p.isUntracked = true → ∀ j ∈ t.jobs, j.pgid ≠ g) :
    (t'.jobs.map (·.pgid)).Sublist (t.jobs.map (·.pgid)) ∨
      ∃ g, p.group? = some g ∧ (∀ j ∈ t.jobs, j.pgid ≠ g) ∧ t'.jobs.map (·.pgid) = t.jobs.map (·.pgid) ++ [g] := by
  cases hc with
  | @enlist _ l command id added =>
    obtain ⟨rfl, -⟩ := Prod.mk.inj added
    exact Or.inr ⟨l.pgid, rfl, hfree l.pgid rfl rfl, by simp⟩
  | finish finished =>
    obtain rfl := congrArg Prod.fst finished
    exact Or.inl (map_markFinished_sublist _ _ _)
  | @suspend _ f signal live id n tracked =>
    obtain rfl := congrArg Prod.fst tracked
    cases ho : t.ofGroup? f.group.pgid with
    | none =>
      refine Or.inr ⟨f.group.pgid, rfl, (ofGroup?_eq_none_iff hw).1 ho, ?_⟩
      rw [trackStopped_of_none ho, map_modify (·.pgid)]
      · simp [JobTable.insert]
      · exact fun _ => rfl
    | some j =>
      rw [trackStopped_of_some ho]
      exact Or.inl (map_modify_sublist _ fun _ => rfl)
  | giveUp f cause =>
    left
    simp only [Foreground.giveUp]
    split
    · exact map_modify_sublist _ fun _ => rfl
    · exact List.Sublist.refl _
  | claim claimed =>
    obtain ⟨j, -, rfl, -⟩ := claim?_some claimed
    exact Or.inl (map_modify_sublist _ fun _ => rfl)
  | restore => exact Or.inl (map_modify_sublist _ fun _ => rfl)
  | resume resumed =>
    obtain ⟨j, -, rfl, -⟩ := resume?_some resumed
    exact Or.inl (map_modify_sublist _ fun _ => rfl)

/-- Where the shell has a group in hand after a change of the table, it has just claimed the job of that group, under the
lock, and every job of the group belongs to the foreground. -/
theorem changes_claimed (hd : (t.jobs.map (·.pgid)).Nodup) (hc : p.Changes t e t' p') (hg : p'.group? = some g) :
    p.holdsLock = true ∧ p'.isUntracked = false ∧ (∃ j ∈ t.jobs, j.pgid = g) ∧
      ∀ j ∈ t'.jobs, j.pgid = g → j.waited = true := by
  cases hc with
  | @claim _ id _ claimed =>
    obtain ⟨j, hj, rfl, rfl⟩ := claim?_some claimed
    obtain rfl := Option.some.inj hg
    have hmem : j ∈ t.jobs := List.mem_of_find?_eq_some hj
    refine ⟨rfl, rfl, ⟨j, hmem, rfl⟩, fun k hk hkg => ?_⟩
    simp only [JobTable.modify, List.mem_map] at hk
    obtain ⟨i, hi, rfl⟩ := hk
    by_cases hid : (i.id == id) = true
    · rw [if_pos hid]
    · rw [if_neg hid] at hkg
      -- Another job of the group would be the claimed one, whose id this is not.
      obtain rfl := List.inj_on_of_nodup_map hd hi hmem hkg
      exact absurd (List.find?_some hj) hid
  | finish | suspend => simp at hg
  | enlist | giveUp | restore | resume => cases hg

/-- What the collector does to the table leaves the jobs with their groups and their owners. -/
theorem closed_of_sublist {jobs jobs' : List Job}
    (hs : (jobs'.map fun j => (j.pgid, j.waited)).Sublist (jobs.map fun j => (j.pgid, j.waited))) {j : Job} (hj : j ∈ jobs') :
    ∃ k ∈ jobs, k.pgid = j.pgid ∧ k.waited = j.waited := by
  obtain ⟨k, hk, he⟩ := List.mem_map.1 (hs.subset (List.mem_map_of_mem hj))
  exact ⟨k, hk, (Prod.mk.inj he).1, (Prod.mk.inj he).2⟩

end ExclusionAux

open ExclusionAux HistoriesAux JobTable

variable {A : Assumption} {es es' : List Event} {e : Event} {s s' : State}

namespace Exclusive

/-- A fresh session has nothing in hand. -/
theorem start : Exclusive [] {} := by
  refine ⟨List.nodup_nil, ?_, ?_, ?_, ?_, ?_⟩ <;> nofun

/-- What leaves the table with fewer jobs, of the same groups and owners, and nothing new in hand or to visit. -/
theorem mono (h : Exclusive es s)
    (ht : (s'.table.jobs.map fun j => (j.pgid, j.waited)).Sublist (s.table.jobs.map fun j => (j.pgid, j.waited)))
    (hc : s'.collector.work ⊆ s.collector.work)
    (hs : s'.shell.group? = none ∨ (s'.shell.group? = s.shell.group? ∧ s'.shell.isUntracked = s.shell.isUntracked)) :
    Exclusive (e :: es) s' := by
  have hup := groupsIn_cons e es
  have hg : (s'.table.jobs.map (·.pgid)).Sublist (s.table.jobs.map (·.pgid)) := by
    have := ht.map Prod.fst
    rwa [List.map_map, List.map_map] at this
  have hin : ∀ g, s'.shell.group? = some g → s.shell.group? = some g ∧ s'.shell.isUntracked = s.shell.isUntracked := by
    intro g hg
    rcases hs with hn | ⟨he, hu⟩
    · exact absurd (hn.symm.trans hg) nofun
    · exact ⟨he.symm.trans hg, hu⟩
  refine ⟨h.distinct.sublist hg, fun j hj => ?_, fun g hm => hup (h.visited g (hc hm)), fun g hm => hup (h.held g (hin g hm).1),
    fun g hm hw => h.unvisited g (hin g hm).1 (hc hw), fun g hm j hj he => ?_⟩
  · obtain ⟨k, hk, hkg, -⟩ := closed_of_sublist ht hj
    exact hup (hkg ▸ h.known k hk)
  · obtain ⟨k, hk, hkg, hkw⟩ := closed_of_sublist ht hj
    rw [← hkw, (hin g hm).2]
    exact h.closed g (hin g hm).1 k hk (hkg.trans he)

/-- The shell moves on. -/
theorem move {p : ShellPoint} (h : Exclusive es s) (ha : FreshGroups es e) (hm : s.shell.Moves s.table e p) :
    Exclusive (e :: es) { s with shell := p } := by
  rcases moves_group hm with hn | ⟨hs, hu⟩ | ⟨l, command, background, rfl, hl⟩
  · exact h.mono (List.Sublist.refl _) (List.Subset.refl _) (Or.inl hn)
  · exact h.mono (List.Sublist.refl _) (List.Subset.refl _) (Or.inr ⟨hs, hu⟩)
  · have hup := groupsIn_cons (.launch l command background) es
    refine ⟨h.distinct, fun j hj => hup (h.known j hj), fun g hg => hup (h.visited g hg), ?_, ?_, ?_⟩ <;> intro g hg <;>
      obtain rfl := Option.some.inj (hl.symm.trans hg)
    · exact List.mem_cons_self
    · exact fun hw => ha (h.visited _ hw)
    · exact fun j hj he => absurd (he ▸ h.known j hj) ha

/-- The shell changes the table. -/
theorem change {t : JobTable} {p : ShellPoint} (h : Exclusive es s) (hw : s.table.WellFormed) (hl : Disciplined s)
    (hc : s.shell.Changes s.table e t p) : Exclusive (e :: es) { s with table := t, shell := p } := by
  have hup := groupsIn_cons e es
  have hfree : ∀ g, s.shell.group? = some g → s.shell.isUntracked = true → ∀ j ∈ s.table.jobs, j.pgid ≠ g := by
    intro g hg hu j hj he
    rw [(h.closed g hg j hj he).2] at hu
    cases hu
  have hgroups := changes_groups hw hc hfree
  refine ⟨?_, ?_, fun g hg => hup (h.visited g hg), fun g hg => ?_, fun g hg => ?_, fun g hg j hj he => ?_⟩
  · rcases hgroups with hs | ⟨g, hg, hn, he⟩
    · exact h.distinct.sublist hs
    · rw [he, List.nodup_append]
      refine ⟨h.distinct, List.nodup_singleton g, fun a ha b hb => ?_⟩
      obtain ⟨j, hj, rfl⟩ := List.mem_map.1 ha
      rw [List.mem_singleton.1 hb]
      exact hn j hj
  · intro j hj
    have hmem := List.mem_map_of_mem (f := (·.pgid)) hj
    rcases hgroups with hs | ⟨g, hg, hn, he⟩
    · obtain ⟨k, hk, hkg⟩ := List.mem_map.1 (hs.subset hmem)
      exact hup (hkg ▸ h.known k hk)
    · rw [he, List.mem_append, List.mem_singleton] at hmem
      rcases hmem with hmem | hmem
      · obtain ⟨k, hk, hkg⟩ := List.mem_map.1 hmem
        exact hup (hkg ▸ h.known k hk)
      · exact hup (hmem ▸ h.held g hg)
  · obtain ⟨-, -, ⟨j, hj, rfl⟩, -⟩ := changes_claimed h.distinct hc hg
    exact hup (h.known j hj)
  · obtain ⟨hlock, -⟩ := changes_claimed h.distinct hc hg
    simp [hl.alone hlock, CollectorPoint.work]
  · obtain ⟨-, hu, -, hwait⟩ := changes_claimed h.distinct hc hg
    exact ⟨hwait j hj he, hu⟩

/-- A pass begins to visit the groups that are open to it. -/
theorem survey (h : Exclusive es s) :
    Exclusive (.survey :: es) { s with collector := .visiting s.table.backgroundGroups } := by
  have hwork : ∀ g ∈ s.table.backgroundGroups, ∃ j ∈ s.table.jobs, j.pgid = g ∧ j.waited = false := by
    intro g hg
    obtain ⟨j, hj, rfl⟩ := List.mem_map.1 hg
    have := (List.mem_filter.1 hj).2
    simp only [Bool.and_eq_true, Bool.not_eq_true'] at this
    exact ⟨j, (List.mem_filter.1 hj).1, rfl, this.1⟩
  refine ⟨h.distinct, h.known, fun g hg => ?_, h.held, fun g hg hm => ?_, h.closed⟩
  · obtain ⟨j, hj, rfl, -⟩ := hwork g hg
    exact h.known j hj
  · obtain ⟨j, hj, he, hn⟩ := hwork g hm
    exact absurd (h.closed g hg j hj he).1 (by simp [hn])

/-- Every step keeps the group in hand away from the collector. -/
theorem step (h : Exclusive es s) (hw : s.table.WellFormed) (hl : Disciplined s) (ha : FreshGroups es e)
    (hs : Step s e s') : Exclusive (e :: es) s' := by
  have same := List.Sublist.refl (s.table.jobs.map fun j => (j.pgid, j.waited))
  cases hs with
  | move moves => exact h.move ha moves
  | change changes => exact h.change hw hl changes
  | lock at_ free => exact h.mono same (List.Subset.refl _) (Or.inl rfl)
  | @unlock id c at_ =>
    refine h.mono same (List.Subset.refl _) (Or.inr ⟨?_, ?_⟩)
    · rw [at_]
      exact group?_afterClaim id c
    · rw [at_]
      cases c <;> rfl
  | announce at_ => exact h.mono same (List.Subset.refl _) (Or.inl rfl)
  | enter at_ free => exact h.mono same (List.nil_subset _) (Or.inr ⟨rfl, rfl⟩)
  | survey at_ => exact h.survey
  | poll at_ result =>
    refine h.mono same ?_ (Or.inr ⟨rfl, rfl⟩)
    rw [at_]
    exact CollectorPoint.work_afterPoll _ _ _
  | record at_ recorded =>
    obtain rfl := congrArg Prod.fst recorded
    refine h.mono (map_childStatus_sublist _ (fun _ _ => rfl) (fun _ _ => rfl) _ _) ?_ (Or.inr ⟨rfl, rfl⟩)
    rw [at_, CollectorPoint.work_tell]
    exact List.Subset.refl _
  | conclude at_ ended =>
    obtain rfl := congrArg Prod.fst ended
    refine h.mono (map_markFinished_sublist _ _ _) ?_ (Or.inr ⟨rfl, rfl⟩)
    rw [at_, CollectorPoint.work_tell]
    exact List.subset_cons_self _ _
  | inform at_ =>
    refine h.mono same ?_ (Or.inr ⟨rfl, rfl⟩)
    rw [at_]
    exact List.Subset.refl _
  | leave at_ => exact h.mono same (List.nil_subset _) (Or.inr ⟨rfl, rfl⟩)

/-- Every run keeps the group in hand away from the collector. -/
theorem of_reachable (h : Reachable FreshGroups es s) : Exclusive es s := by
  have := h.invariant (P := fun es s => Exclusive es s ∧ Disciplined s ∧ Sound s)
    (fun hp ha hs => ⟨hp.1.step hp.2.2.wellFormed hp.2.1 ha hs, hp.2.1.step hs, hp.2.2.step hs⟩)
    ⟨start, Disciplined.start, Sound.start⟩
  exact this.1

end Exclusive

/-! ## During a wait -/

variable {g : Pid}

/-- A wait goes on with every step that does not end it. -/
theorem Step.awaited (h : Step s e s') (hg : s.shell.awaited? = some g) (he : e.endsWait g = false) :
    s'.shell.awaited? = some g := by
  obtain ⟨f, p, hp, rfl⟩ : ∃ f p, s.shell = .waiting f p ∧ f.group.pgid = g := by
    cases hp : s.shell <;> rw [hp] at hg <;> first | exact ⟨_, _, rfl, Option.some.inj hg⟩ | cases hg
  cases h with
  | move moves =>
    rw [hp] at moves
    cases moves with
    | await => rfl
    | settle | complete => simp [Event.endsWait] at he
  | change changes =>
    rw [hp] at changes
    cases changes
  | lock at_ | unlock at_ | announce at_ =>
    rw [hp] at at_
    cases at_
  | enter | survey | poll | record | conclude | inform | leave => exact hg

/-- The collector waits on the group that it visits. -/
theorem Step.visiting {result : WaitResult} (h : Step s (.poll g result) s') : ∃ rest, s.collector = .visiting (g :: rest) := by
  revert h
  generalize he : Event.poll g result = e
  intro h
  cases h with
  | move moves =>
    subst he
    generalize s.shell = p at moves
    cases moves
  | change changes =>
    subst he
    generalize s.shell = p at changes
    cases changes
  | poll at_ =>
    obtain ⟨rfl, rfl⟩ := Event.poll.inj he
    exact ⟨_, at_⟩
  | _ => cases he

/-- No pass waits on a group that the shell has in hand. -/
theorem Exclusive.not_polled (h : Exclusive es s) (hg : s.shell.group? = some g) (result : WaitResult) :
    ¬ Step s (.poll g result) s' := by
  intro hs
  obtain ⟨rest, at_⟩ := hs.visiting
  exact h.unvisited g hg (by rw [at_]; exact List.mem_cons_self)

/-- What the shell waits for is in hand. -/
theorem group?_of_awaited (hg : s.shell.awaited? = some g) : s.shell.group? = some g := by
  cases hp : s.shell <;> rw [hp] at hg <;> first | exact hg | cases hg

/-- A wait goes on, and no pass waits on its group, in every run without an event that ends it. -/
theorem awaited_of_run (h0 : Reachable FreshGroups es s) (hg : s.shell.awaited? = some g) {new : List Event}
    (h : Run FreshGroups es s (new ++ es) s') (hne : ∀ e ∈ new, e.endsWait g = false) :
    s'.shell.awaited? = some g ∧ ∀ result, Event.poll g result ∉ new := by
  refine h.since (P := fun new s' => (∀ e ∈ new, e.endsWait g = false) →
    s'.shell.awaited? = some g ∧ ∀ result, Event.poll g result ∉ new) (fun _ => ⟨hg, fun _ => List.not_mem_nil⟩) ?_ hne
  intro new e s' s'' before ih next hne
  obtain ⟨hg', hold⟩ := ih fun e he => hne e (List.mem_cons_of_mem _ he)
  refine ⟨next.awaited hg' (hne e List.mem_cons_self), fun result hmem => ?_⟩
  rcases List.mem_cons.1 hmem with rfl | hmem
  · exact (Exclusive.of_reachable (h0.trans before)).not_polled (group?_of_awaited hg') result next
  · exact hold result hmem

/-- Foreground groups are left alone, in three parts, for every order of the steps of the shell and the collector in which no
group id is used twice. While the shell waits for a group:
1. The group is not among those that a pass has still to do with.
2. No step of the collector is a wait on it.
3. This stays so, and none of its status changes is taken by the collector, until an event ends the wait. -/
theorem foreground_left_alone (h : Reachable FreshGroups es s) (hg : s.shell.awaited? = some g) :
    g ∉ s.collector.work ∧ (∀ result s', ¬ Step s (.poll g result) s') ∧
    ∀ new s', Run FreshGroups es s (new ++ es) s' → (∀ e ∈ new, e.endsWait g = false) →
      s'.shell.awaited? = some g ∧ ∀ result, Event.poll g result ∉ new := by
  have hin := group?_of_awaited hg
  have hx := Exclusive.of_reachable h
  exact ⟨hx.unvisited g hin, fun result _ => hx.not_polled hin result,
    fun _ _ hr hne => awaited_of_run h hg hr hne⟩

/-- The shell waits for the group 200 while a pass is about to wait on the group 100. -/
theorem foreground_left_alone_in_a_pass :
    ∃ es s, Reachable FreshGroups es s ∧ s.shell.awaited? = some 200 ∧ s.collector.work = [100] ∧
      200 ∉ s.collector.work ∧ ∀ result s', ¬ Step s (.poll 200 result) s' := by
  have r₀ : Reachable FreshGroups [] {} := .refl
  have r₁ := r₀.step (e := .launch ⟨100, [100]⟩ "sleep 9" true) (by simp [FreshGroups, groupsIn, launchedIn, Event.launched?]) (.move (.launch ..))
  have r₂ := r₁.step (by trivial) (.change (.enlist rfl))
  have r₃ := r₂.step (by trivial) (.announce rfl)
  have r₄ := r₃.step (by trivial) (.enter rfl rfl)
  have r₅ := r₄.step (by trivial) (.survey rfl)
  have r₆ := r₅.step (by trivial) (.move (.answer _))
  have r₇ := r₆.step (e := .launch ⟨200, [200]⟩ "vi" false) (by simp [FreshGroups, groupsIn, launchedIn, Event.launched?]) (.move (.launch ..))
  have r₈ := r₇.step (by trivial) (.move (.begin ..))
  obtain ⟨hwork, hpoll, -⟩ := foreground_left_alone (g := 200) r₈ rfl
  exact ⟨_, _, r₈, rfl, rfl, hwork, hpoll⟩

end JobShell
