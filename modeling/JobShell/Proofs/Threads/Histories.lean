import JobShell.Proofs.Threads.Interleaving

/-!
# What a history tells

What was launched, registered and collected in a run of the two threads, whichever of them did it, and what the system may be
relied on for (`FreshGroups`, `Orderly`). `Proper` is what follows of the pipelines in a history.
-/

namespace JobShell

namespace Event

/-- The pipeline that was launched. -/
def launched? : Event → Option Launched
  | .launch l .. => some l
  | _ => none

/-- The pipeline that was registered, and the number it got: one for the background, or one that stopped in the foreground
without being a job before. -/
def registered? : Event → Option (JobId × Launched)
  | .enlist id l => some (id, l)
  | .suspend id f => if f.claimed.isNone then some (id, { pgid := f.group.pgid, pids := f.members }) else none
  | _ => none

/-- What a wait of either thread was answered, and on which group. -/
def answer? : Event → Option (Pid × WaitResult)
  | .await pgid result | .settle pgid result | .poll pgid result => some (pgid, result)
  | _ => none

end Event

/-- The process whose end a wait was told of. -/
def WaitResult.ended? : WaitResult → Option Pid
  | .ok w => w.ended?
  | .error _ => none

/-- The process that was collected. -/
def Event.collected? (e : Event) : Option Pid := e.answer?.bind fun a => WaitResult.ended? a.2

/-- The pipelines that were launched, the last one first. -/
def launchedIn (es : List Event) : List Launched := es.filterMap Event.launched?

/-- The groups that were launched. -/
def groupsIn (es : List Event) : List Pid := (launchedIn es).map (·.pgid)

/-- The pipelines that were registered, with their numbers. -/
def registeredIn (es : List Event) : List (JobId × Launched) := es.filterMap Event.registered?

/-- The processes that were collected, by whichever thread. -/
def collectedIn (es : List Event) : List Pid := es.filterMap Event.collected?

/-- The books of a history: what was launched, registered and collected in it. -/
structure Ledger where
  launched : List Launched
  registered : List (JobId × Launched)
  collected : List Pid

/-- The books of this history. -/
def ledger (es : List Event) : Ledger :=
  { launched := launchedIn es, registered := registeredIn es, collected := collectedIn es }

/-- The members of the pipeline that were not collected yet. -/
def Ledger.left (L : Ledger) (l : Launched) : List Pid := leftOf l.pids L.collected

/-! ## Assumptions -/

/-- No group id is used twice. -/
def FreshGroups : Assumption
  | es, .launch l .. => l.pgid ∉ groupsIn es
  | _, _ => True

/-- What a wait on a group may be answered after these events. It may be interrupted at any time. It fails for want of children
when all that was launched in the group was collected, and only then; and it tells of nothing but members that were not. -/
def Answers (es : List Event) (pgid : Pid) : WaitResult → Prop
  | .error e => e = .interrupted ∨ (e = .noChild ∧ ∀ l ∈ launchedIn es, l.pgid = pgid → (ledger es).left l = [])
  | .ok w => ∃ l ∈ launchedIn es, l.pgid = pgid ∧ (ledger es).left l ≠ [] ∧ ∀ pid, w.pid? = some pid → pid ∈ (ledger es).left l

/-- The system keeps its word: no id of a process or a group is used twice, and each wait is answered as it may be. -/
def Orderly : Assumption
  | es, .launch l .. =>
    l.pgid ∉ groupsIn es ∧ l.pids ≠ [] ∧ l.pids.Nodup ∧ ∀ a ∈ launchedIn es, List.Disjoint a.pids l.pids
  | es, .await pgid result | es, .settle pgid result | es, .poll pgid result => Answers es pgid result
  | _, _ => True

namespace HistoriesAux

variable {e : Event} {es : List Event} {L : Ledger} {l a : Launched} {pid : Pid}

/-- An orderly system uses no group id twice. -/
theorem freshGroups_of_orderly (h : Orderly es e) : FreshGroups es e := by
  cases e <;> first | exact h.1 | trivial

/-- What was launched stays launched. -/
theorem groupsIn_cons (e : Event) (es : List Event) : groupsIn es ⊆ groupsIn (e :: es) := by
  refine List.map_subset _ fun l hl => ?_
  obtain ⟨a, ha, he⟩ := List.mem_filterMap.1 hl
  exact List.mem_filterMap.2 ⟨a, List.mem_cons_of_mem _ ha, he⟩

/-- An event that launches, registers and collects nothing leaves the books. -/
theorem ledger_of_quiet (hl : e.launched? = none) (hr : e.registered? = none) (hc : e.collected? = none) :
    ledger (e :: es) = ledger es := by
  simp only [ledger, launchedIn, registeredIn, collectedIn, List.filterMap_cons, hl, hr, hc]

/-- A process that is collected is entered in the books. -/
theorem ledger_of_collected (hl : e.launched? = none) (hr : e.registered? = none) (hc : e.collected? = some pid) :
    ledger (e :: es) = { ledger es with collected := pid :: (ledger es).collected } := by
  simp only [ledger, launchedIn, registeredIn, collectedIn, List.filterMap_cons, hl, hr, hc]

/-- The processes that were collected when one more is. -/
theorem mem_collected_iff (p : Pid) : p ∈ pid :: L.collected ↔ p ∈ L.collected ∨ p = pid := by
  rw [List.mem_cons, or_comm]

/-- Where a process that is no member is collected, the same members are left. -/
theorem left_of_not_mem (hp : pid ∉ l.pids) : { L with collected := pid :: L.collected }.left l = L.left l :=
  leftOf_of_not_mem mem_collected_iff hp

/-- Where a member is collected, the others are left. -/
theorem length_left_of_mem (hn : l.pids.Nodup) (hp : pid ∈ L.left l) :
    ({ L with collected := pid :: L.collected }.left l).length + 1 = (L.left l).length :=
  length_leftOf_of_mem mem_collected_iff hn hp

/-- A member that is left is a member. -/
theorem mem_pids_of_left (h : pid ∈ L.left l) : pid ∈ l.pids := (mem_leftOf.1 h).1

/-- A process that was truly collected was left of a pipeline of the group. -/
theorem left_of_answers {pgid : Pid} {result : WaitResult} (h : Answers es pgid result) (he : result.ended? = some pid) :
    ∃ l ∈ launchedIn es, l.pgid = pgid ∧ pid ∈ (ledger es).left l := by
  cases result with
  | error => cases he
  | ok w =>
    obtain ⟨l, hl, hg, -, hp⟩ := h
    obtain ⟨_, -, hw⟩ := Option.bind_eq_some_iff.1 he
    exact ⟨l, hl, hg, hp pid hw⟩

end HistoriesAux

open HistoriesAux

/-- The pipelines in the books can be told apart: by their groups, and by each of their members. -/
structure Ledger.Proper (L : Ledger) : Prop where
  nonempty : ∀ l ∈ L.launched, l.pids ≠ []
  nodup : ∀ l ∈ L.launched, l.pids.Nodup
  groups : ∀ l ∈ L.launched, ∀ a ∈ L.launched, l.pgid = a.pgid → l = a
  members : ∀ l ∈ L.launched, ∀ a ∈ L.launched, ∀ pid ∈ l.pids, pid ∈ a.pids → l = a
  collected : ∀ pid ∈ L.collected, ∃ l ∈ L.launched, pid ∈ l.pids

namespace Ledger.Proper

variable {e : Event} {es : List Event}

/-- Before the first event there are no pipelines. -/
theorem start : (ledger []).Proper := by
  refine ⟨?_, ?_, ?_, ?_, ?_⟩ <;> nofun

/-- One more pipeline can be told apart from the others. -/
theorem launch (h : (ledger es).Proper) {l : Launched} {command : String} {background : Bool}
    (ho : Orderly es (.launch l command background)) : (ledger (.launch l command background :: es)).Proper := by
  obtain ⟨hg, hne, hnd, hdis⟩ := ho
  have hgroup : ∀ a ∈ launchedIn es, a.pgid ≠ l.pgid := fun a ha he => hg (List.mem_map.2 ⟨a, ha, he⟩)
  refine ⟨?_, ?_, ?_, ?_, ?_⟩
  · exact List.forall_mem_cons.2 ⟨hne, h.nonempty⟩
  · exact List.forall_mem_cons.2 ⟨hnd, h.nodup⟩
  · intro a ha b hb he
    rcases List.mem_cons.1 ha with rfl | ha' <;> rcases List.mem_cons.1 hb with rfl | hb'
    · rfl
    · exact absurd he.symm (hgroup b hb')
    · exact absurd he (hgroup a ha')
    · exact h.groups a ha' b hb' he
  · intro a ha b hb pid hpa hpb
    rcases List.mem_cons.1 ha with rfl | ha' <;> rcases List.mem_cons.1 hb with rfl | hb'
    · rfl
    · exact absurd hpa (hdis b hb' hpb)
    · exact absurd hpb (hdis a ha' hpa)
    · exact h.members a ha' b hb' pid hpa hpb
  · intro pid hp
    obtain ⟨a, ha, hpa⟩ := h.collected pid hp
    exact ⟨a, List.mem_cons_of_mem _ ha, hpa⟩

/-- What was collected from a pipeline in the books is a member of one. -/
theorem collect (h : (ledger es).Proper) {pgid : Pid} {result : WaitResult} (ha : Answers es pgid result)
    (he : e.answer? = some (pgid, result)) (hl : launchedIn (e :: es) = launchedIn es) : (ledger (e :: es)).Proper := by
  have hlaunched : (ledger (e :: es)).launched = (ledger es).launched := hl
  refine ⟨?_, ?_, ?_, ?_, fun pid hp => ?_⟩
  · rw [hlaunched]
    exact h.nonempty
  · rw [hlaunched]
    exact h.nodup
  · rw [hlaunched]
    exact h.groups
  · rw [hlaunched]
    exact h.members
  · rw [hlaunched]
    obtain ⟨b, hb, hbp⟩ := List.mem_filterMap.1 hp
    rcases List.mem_cons.1 hb with rfl | hb
    · rw [Event.collected?, he] at hbp
      obtain ⟨l, hl, -, hleft⟩ := left_of_answers ha hbp
      exact ⟨l, hl, mem_pids_of_left hleft⟩
    · exact h.collected pid (List.mem_filterMap.2 ⟨b, hb, hbp⟩)

/-- The pipelines can be told apart after every event of an orderly system. -/
theorem step (h : (ledger es).Proper) (ho : Orderly es e) : (ledger (e :: es)).Proper := by
  cases e with
  | launch => exact h.launch ho
  | await | settle | poll => exact h.collect ho rfl rfl
  | _ => exact ⟨h.nonempty, h.nodup, h.groups, h.members, h.collected⟩

/-- With an orderly system, the pipelines can be told apart after every run. -/
theorem of_reachable {s : State} (h : Reachable Orderly es s) : (ledger es).Proper :=
  h.invariant (P := fun es _ => (ledger es).Proper) (fun hp ho _ => hp.step ho) start

end Ledger.Proper

end JobShell
