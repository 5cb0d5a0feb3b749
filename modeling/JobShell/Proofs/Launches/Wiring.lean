import JobShell.Proofs.Launches.Holdings

/-!
# The wiring of a pipeline

All pipes of a pipeline are made first. Then the children are made in order, and after each the shell releases the pipe before it, so
that when a child is made, the pipe before it and the one after it are still there, and those are gone that lie further back
(`PipeSet.keeping`). A child takes the two ends that it needs and closes all that it was given.

`launch_wires` follows a launch, whatever the system answers, to the end: every child reads from the pipe before it and writes to the
one after it, holds no other end of a pipe, and the shell has closed each end once. So each end is held by exactly one process.
-/

namespace JobShell

open Act

variable {σ : Type} {S : System σ}

/-! ## The pipes that are not released -/

/-- The pipes, the first `k` of them released. -/
def PipeSet.keeping (qs : List Pipe) (k : Nat) : PipeSet := { slots := List.replicate k none ++ (qs.drop k).map some }

namespace PipeSet

variable {qs : List Pipe} {k i : Nat}

/-- A pipe is there if it is not released. -/
theorem pipe?_keeping (qs : List Pipe) (k i : Nat) : (keeping qs k).pipe? i = if i < k then none else qs[i]? := by
  rw [pipe?, keeping]
  by_cases hi : i < k
  · rw [if_pos hi, List.getElem?_append_left (by rwa [List.length_replicate]), List.getElem?_replicate_of_lt hi]
    rfl
  · rw [if_neg hi, List.getElem?_append_right (by rw [List.length_replicate]; omega), List.length_replicate, List.getElem?_map,
      List.getElem?_drop, Nat.add_sub_cancel' (Nat.le_of_not_lt hi)]
    cases qs[i]? <;> rfl

/-- The descriptors that are open are the ends of the pipes that are not released. -/
theorem openDescriptors_keeping (qs : List Pipe) (k : Nat) : (keeping qs k).openDescriptors = (qs.drop k).flatMap Pipe.ends := by
  have none_released : (List.replicate k (none : Option Pipe)).flatMap (fun slot => (slot.map Pipe.ends).getD []) = [] := by
    rw [List.flatMap_eq_nil_iff]
    intro slot hs
    rw [List.eq_of_mem_replicate hs]
    rfl
  rw [openDescriptors, keeping, List.flatMap_append, none_released, List.nil_append, List.flatMap_map]
  rfl

/-- One more pipe is made, while none is released. -/
theorem slots_keeping_concat (qs : List Pipe) (q : Pipe) : (keeping qs 0).slots ++ [some q] = (keeping (qs ++ [q]) 0).slots := by
  simp [keeping]

/-- The next pipe is released. -/
theorem release_keeping (hk : k < qs.length) :
    (keeping qs k).release k = (keeping qs (k + 1), ((qs.drop k).take 1).flatMap Pipe.ends) := by
  have cut : qs.drop k = qs[k] :: qs.drop (k + 1) := List.drop_eq_getElem_cons hk
  have slots : (keeping qs k).slots.set k none = (keeping qs (k + 1)).slots := by
    rw [keeping, cut, List.set_append_right _ _ (by simp), List.length_replicate, Nat.sub_self, keeping, List.replicate_succ',
      List.append_assoc]
    rfl
  rw [release, slots, pipe?_keeping, if_neg (Nat.lt_irrefl k), List.getElem?_eq_getElem hk, cut]
  exact congrArg (keeping qs (k + 1), ·) (List.append_nil _).symm

end PipeSet

/-! ## The launch -/

/-- A child at its place among the pipes: when it was made, the pipes before and after it were not released. It reads from the one
before it and writes to the one after it, the first reads and the last writes where the shell does, and no other end is open. -/
structure Child.Wired (before : Holding) (qs : List Pipe) (i : Nat) (c : Child) : Prop where
  given : ∀ k q, k = i ∨ k + 1 = i → qs[k]? = some q → c.given q.read = some (.reading k) ∧ c.given q.write = some (.writing k)
  input : c.holds 0 = if i = 0 then before 0 else some (.reading (i - 1))
  output : c.holds 1 = if i < qs.length then some (.writing i) else before 1
  others : ∀ d, 1 < d → c.holds d = if d ∈ qs.flatMap Pipe.ends then none else before d

namespace WiringAux

/-- To close descriptors is what it is to the wiring. -/
theorem closeAll_wired (ds : List Descriptor) (s : Session (σ × Wiring)) :
    (closeAll S.wired ds s).2.world.2 = ds.foldl Wiring.close s.world.2 := by
  show (ds.foldl (fun world d => S.wired.closeDescriptor d world) s.world).2 = ds.foldl Wiring.close s.world.2
  generalize s.world = world
  induction ds generalizing world with
  | nil => rfl
  | cons d rest ih => exact ih (S.wired.closeDescriptor d world)

/-- To kill and collect children leaves the wiring. -/
theorem abandon_wired (made : List Pid) (s : Session (σ × Wiring)) : (abandon S.wired made s).2.world.2 = s.world.2 := by
  have one : ∀ (pid : Pid) (patience : Nat) (s : Session (σ × Wiring)),
      (awaitProcess S.wired pid patience s).2.world.2 = s.world.2 := by
    intro pid patience
    induction patience with
    | zero => intro s; rfl
    | succ patience ih =>
      intro s
      rw [awaitProcess, bind_apply]
      split
      · rw [ih]
        rfl
      · rfl
  have each : ∀ (pids : List Pid) (s : Session (σ × Wiring)), (awaitProcesses S.wired pids s).2.world.2 = s.world.2 := by
    intro pids
    induction pids with
    | nil => intro s; rfl
    | cons pid rest ih =>
      intro s
      rw [awaitProcesses, bind_apply, ih, one]
  cases made with
  | nil => rfl
  | cons leader rest =>
    rw [abandon, bind_apply, each]
    rfl

/-- To close all that is not released is to release all pipes. -/
theorem closeAll_keeping {before : Holding} {k : Nat} (s : Session (σ × Wiring)) (hk : k ≤ s.world.2.pipes.length)
    (h : s.world.2.Distinct → s.world.2.Holds before k) :
    let w := (closeAll S.wired (PipeSet.keeping s.world.2.pipes k).openDescriptors s).2.world.2
    w.pipes = s.world.2.pipes ∧ w.children = s.world.2.children ∧ (w.Distinct → w.Holds before w.pipes.length) := by
  intro w
  have hw : w = ((s.world.2.pipes.drop k).flatMap Pipe.ends).foldl Wiring.close s.world.2 := by
    rw [← PipeSet.openDescriptors_keeping]
    exact closeAll_wired _ s
  have pipes : w.pipes = s.world.2.pipes := by rw [hw, Wiring.foldl_close]
  have children : w.children = s.world.2.children := by rw [hw, Wiring.foldl_close]
  refine ⟨pipes, children, fun distinct => ?_⟩
  have distinct : s.world.2.Distinct := distinct.of_prefix (pipes ▸ List.prefix_refl _)
  rw [pipes, hw]
  exact (h distinct).releaseAll distinct hk

/-- To release the next pipe is to close both its ends. -/
theorem releasePipe_wired {before : Holding} {k : Nat} (s : Session (σ × Wiring)) (hk : k < s.world.2.pipes.length)
    (h : s.world.2.Distinct → s.world.2.Holds before k) :
    ∃ s', releasePipe S.wired (.keeping s.world.2.pipes k) k s = (.keeping s'.world.2.pipes (k + 1), s') ∧
      s'.world.2.pipes = s.world.2.pipes ∧ s'.world.2.children = s.world.2.children ∧
      (s'.world.2.Distinct → s'.world.2.Holds before (k + 1)) := by
  have closed := closeAll_wired (S := S) (((s.world.2.pipes.drop k).take 1).flatMap Pipe.ends) s
  generalize hs : (closeAll S.wired (((s.world.2.pipes.drop k).take 1).flatMap Pipe.ends) s).2 = s' at closed
  have pipes : s'.world.2.pipes = s.world.2.pipes := by rw [closed, Wiring.foldl_close]
  have children : s'.world.2.children = s.world.2.children := by rw [closed, Wiring.foldl_close]
  refine ⟨s', ?_, pipes, children, fun distinct => ?_⟩
  · rw [releasePipe, PipeSet.release_keeping hk, pipes, ← hs]
    rfl
  · have distinct : s.world.2.Distinct := distinct.of_prefix (pipes ▸ List.prefix_refl _)
    rw [closed]
    exact (h distinct).release distinct 1

/-- The pipes are made one after the other. Either all are there, or all are released again. -/
theorem openPipesFrom_wired {before : Holding} (count : Nat) (s : Session (σ × Wiring))
    (h : s.world.2.Distinct → s.world.2.Holds before 0) {r : Except Errno PipeSet} {s' : Session (σ × Wiring)}
    (hr : openPipesFrom S.wired (.keeping s.world.2.pipes 0) count s = (r, s')) :
    s'.world.2.children = s.world.2.children ∧
    (∀ pipes, r = .ok pipes → pipes = .keeping s'.world.2.pipes 0 ∧ s'.world.2.pipes.length = s.world.2.pipes.length + count ∧
      (s'.world.2.Distinct → s'.world.2.Holds before 0)) ∧
    (∀ e, r = .error e → s'.world.2.Distinct → s'.world.2.Holds before s'.world.2.pipes.length) := by
  induction count generalizing s with
  | zero =>
    cases hr
    refine ⟨rfl, fun pipes hp => ?_, nofun⟩
    cases hp
    exact ⟨rfl, rfl, h⟩
  | succ count ih =>
    rw [openPipesFrom, bind_apply] at hr
    have asked : ask S.wired.makePipe s = ((S.makePipe s.world.1).1, { s with world := (S.wired.makePipe s.world).2 }) := rfl
    rw [asked] at hr
    cases hm : (S.makePipe s.world.1).1 with
    | error e =>
      have same : (S.wired.makePipe s.world).2.2 = s.world.2 := by
        simp only [System.wired, System.noted, hm]
      rw [hm] at hr
      generalize hs : { s with world := (S.wired.makePipe s.world).2 } = s₁ at hr
      have hw : s₁.world.2 = s.world.2 := by rw [← hs, same]
      rw [← hw] at h hr ⊢
      cases hr
      obtain ⟨-, children, released⟩ := closeAll_keeping (S := S) s₁ (Nat.zero_le _) h
      exact ⟨children, nofun, fun _ _ => released⟩
    | ok q =>
      obtain ⟨read, write⟩ := q
      have made : (S.wired.makePipe s.world).2.2 = s.world.2.make ⟨read, write⟩ := by
        simp only [System.wired, System.noted, hm]
      rw [hm] at hr
      generalize hs : { s with world := (S.wired.makePipe s.world).2 } = s₁ at hr
      have hw : s₁.world.2 = s.world.2.make ⟨read, write⟩ := by rw [← hs, made]
      have kept : s₁.world.2.Distinct → s₁.world.2.Holds before 0 := by
        rw [hw]
        exact fun distinct => (h (distinct.of_prefix (List.prefix_append ..))).make distinct
      have slots : PipeSet.mk ((PipeSet.keeping s.world.2.pipes 0).slots ++ [some ⟨read, write⟩]) = .keeping s₁.world.2.pipes 0 := by
        rw [hw]
        exact congrArg PipeSet.mk (PipeSet.slots_keeping_concat ..)
      dsimp only at hr
      rw [slots] at hr
      obtain ⟨children, opened, failed⟩ := ih s₁ kept hr
      have length : s₁.world.2.pipes.length = s.world.2.pipes.length + 1 := by
        rw [hw]
        exact List.length_append
      rw [length, Nat.add_assoc, Nat.add_comm 1] at opened
      rw [hw] at children
      exact ⟨children, opened, failed⟩

/-- The shell has made these children and released the first `k` pipes, and all children are wired up. -/
structure Forked (before : Holding) (k : Nat) (made : List Pid) (w : Wiring) : Prop where
  holds : w.Holds before k
  wired : ∀ (i : Nat) (c : Child), w.children[i]? = some c → c.Wired before w.pipes i
  pids : w.children.map Child.pid = made

/-- A child that is made at its place is wired up. -/
theorem wired_fork {before : Holding} {i : Nat} {w : Wiring} (distinct : w.Distinct) (h : w.Holds before (i - 1)) (hi : i ≤ w.pipes.length)
    (plan : ChildPlan) (hin : plan.input = (PipeSet.keeping w.pipes (i - 1)).inputOf i)
    (hout : plan.output = (PipeSet.keeping w.pipes (i - 1)).outputOf i)
    (hclose : plan.close = (PipeSet.keeping w.pipes (i - 1)).openDescriptors) (pid : Pid) :
    Child.Wired before w.pipes i ⟨pid, w.held, plan.steps.foldl Holding.after w.held⟩ := by
  have output_eq : plan.output = w.pipes[i]?.map Pipe.write := by
    rw [hout, PipeSet.outputOf, PipeSet.pipe?_keeping, if_neg (by omega)]
  have close_eq : plan.close = (w.pipes.drop (i - 1)).flatMap Pipe.ends := by rw [hclose, PipeSet.openDescriptors_keeping]
  have ends_eq : w.ends = (w.pipes.take (i - 1)).flatMap Pipe.ends ++ plan.close := by
    rw [close_eq, ← List.flatMap_append, List.take_append_drop, Wiring.ends]
  have standard : ∀ d, d ≤ 2 → w.held d = before d := fun d hd =>
    h.others d fun hm => Nat.not_lt.2 hd (distinct.above d hm)
  have above_close : ∀ d ∈ plan.close, 2 < d := fun d hd => distinct.above d (ends_eq ▸ List.mem_append_right _ hd)
  have above_output : ∀ d ∈ plan.output, 2 < d := by
    intro d hd
    rw [output_eq, Option.mem_def, Option.map_eq_some_iff] at hd
    obtain ⟨q, hq, rfl⟩ := hd
    exact distinct.above _ (Wiring.mem_ends hq (by simp [Pipe.ends]))
  obtain ⟨input, output, others⟩ := plan.steps_held w.held above_close above_output
  refine ⟨fun k q hk hq => h.kept k q (by omega) hq, input.trans ?_, output.trans ?_, fun d hd => (others d hd).trans ?_⟩
  · cases i with
    | zero =>
      have none_before : plan.input = none := hin
      rw [none_before, standard 0 (by decide)]
      rfl
    | succ j =>
      have there : w.pipes[j]? = some w.pipes[j] := List.getElem?_eq_getElem hi
      have input_eq : plan.input = some w.pipes[j].read := by
        rw [hin, PipeSet.inputOf, PipeSet.pipe?_keeping, if_neg (by omega), there]
        rfl
      rw [input_eq, Option.bind_some, (h.kept j _ (Nat.le_refl j) there).1]
      rfl
  · by_cases hl : i < w.pipes.length
    · have there : w.pipes[i]? = some w.pipes[i] := List.getElem?_eq_getElem hl
      rw [output_eq, there, Option.map_some, Option.bind_some, (h.kept i _ (Nat.sub_le i 1) there).2, if_pos hl]
      rfl
    · rw [output_eq, List.getElem?_eq_none (Nat.le_of_not_lt hl), standard 1 (by decide), if_neg hl]
      rfl
  · show _ = if d ∈ w.ends then none else before d
    by_cases hc : d ∈ plan.close
    · rw [if_pos hc, if_pos (ends_eq ▸ List.mem_append_right _ hc)]
    · by_cases hr : d ∈ (w.pipes.take (i - 1)).flatMap Pipe.ends
      · rw [if_neg hc, if_pos (ends_eq ▸ List.mem_append_left _ hr), h.released d hr]
      · have hn : d ∉ w.ends := ends_eq ▸ fun hm => (List.mem_append.1 hm).elim hr hc
        rw [if_neg hc, if_neg hn, h.others d hn]

/-- A child more is wired up, where the one that is made is. -/
theorem Forked.snoc {before : Holding} {k : Nat} {made : List Pid} {w w' : Wiring} (h : Forked before k made w) {c : Child}
    (pipes : w'.pipes = w.pipes) (children : w'.children = w.children ++ [c]) (wired : c.Wired before w.pipes made.length)
    (holds : w'.Holds before made.length) : Forked before made.length (made ++ [c.pid]) w' := by
  have count : w.children.length = made.length := by rw [← h.pids, List.length_map]
  refine ⟨holds, fun i d hd => ?_, ?_⟩
  · rw [pipes]
    rw [children] at hd
    by_cases hi : i < w.children.length
    · rw [List.getElem?_append_left hi] at hd
      exact h.wired i d hd
    · rw [List.getElem?_append_right (Nat.le_of_not_lt hi), List.getElem?_singleton] at hd
      split at hd
      · obtain rfl : i = made.length := by omega
        cases hd
        exact wired
      · cases hd
  · rw [children, List.map_append, h.pids]
    rfl

/-- The children stay wired up when all pipes are released. -/
theorem closeAll_forked {before : Holding} {k : Nat} {made : List Pid} (s : Session (σ × Wiring)) (hk : k ≤ s.world.2.pipes.length)
    (h : s.world.2.Distinct → Forked before k made s.world.2) :
    let w := (closeAll S.wired (PipeSet.keeping s.world.2.pipes k).openDescriptors s).2.world.2
    w.pipes = s.world.2.pipes ∧ (w.Distinct → Forked before w.pipes.length made w) := by
  intro w
  obtain ⟨pipes, children, released⟩ := closeAll_keeping (S := S) s hk fun distinct => (h distinct).holds
  refine ⟨pipes, fun distinct => ⟨released distinct, ?_, ?_⟩⟩
  · have forked := h (distinct.of_prefix (pipes ▸ List.prefix_refl _))
    rw [pipes, children]
    exact forked.wired
  · have forked := h (distinct.of_prefix (pipes ▸ List.prefix_refl _))
    rw [children]
    exact forked.pids

/-! ### One child after the other -/

/-- What is planned for the child of a stage. -/
def plan (shell : String) (foreground claimsTerminal : Bool) (environment : Environment) (stage : Stage) (pipes : PipeSet)
    (made : List Pid) : ChildPlan :=
  { shell, stage, environment, group := made.head?, foreground, claimsTerminal
    input := pipes.inputOf made.length, output := pipes.outputOf made.length, close := pipes.openDescriptors }

/-- The child after these is made, and the pipe before it released. -/
def forkNext (S : System σ) (p : ChildPlan) (pipes : PipeSet) (made : List Pid) : Act σ (Except Errno (Pid × PipeSet)) := do
  match ← ask (S.fork p) with
  | .error cause => return .error cause
  | .ok child =>
    tell (S.placeInGroup child (made.head?.getD child))
    match made.length with
    | 0 => return .ok (child, pipes)
    | i + 1 => return .ok (child, ← releasePipe S pipes i)

/-- The child of a stage is made and then those of the stages after it, unless it cannot be made. -/
theorem forkStages_cons (shell : String) (foreground claimsTerminal : Bool) (stage : Stage) (rest : List Stage) (pipes : PipeSet)
    (made : List Pid) (s : Session σ) :
    forkStages S shell foreground claimsTerminal (stage :: rest) made.length pipes made s =
      match forkNext S (plan shell foreground claimsTerminal s.environment stage pipes made) pipes made s with
      | (.ok (child, pipes), s₁) => forkStages S shell foreground claimsTerminal rest (made.length + 1) pipes (made ++ [child]) s₁
      | (.error cause, s₁) => (.error (.fork cause), (closeAll S pipes.openDescriptors (abandon S made s₁).2).2) := by
  rw [forkStages, forkNext, bind_apply, get_apply, bind_apply, bind_apply, plan]
  dsimp only
  generalize ask (S.fork _) s = asked
  obtain ⟨result, s₁⟩ := asked
  cases result with
  | error cause => rfl
  | ok child => cases made.length <;> rfl

/-- If no child fails, there is one more for each of the stages. -/
theorem forkStages_ok {shell : String} {foreground claimsTerminal : Bool} {stages : List Stage} {pipes : PipeSet} (made : List Pid)
    {all : List Pid} {s s' : Session σ} (hr : forkStages S shell foreground claimsTerminal stages made.length pipes made s = (.ok all, s')) :
    ∃ pids, all = made ++ pids ∧ pids.length = stages.length := by
  induction stages generalizing pipes made s with
  | nil =>
    cases hr
    exact ⟨[], (List.append_nil _).symm, rfl⟩
  | cons stage rest ih =>
    rw [forkStages_cons] at hr
    generalize forkNext S _ pipes made s = next at hr
    obtain ⟨cause | ⟨child, pipes⟩, s₁⟩ := next
    · cases hr
    · have length : (made ++ [child]).length = made.length + 1 := List.length_append
      rw [← length] at hr
      obtain ⟨pids, rfl, count⟩ := ih _ hr
      exact ⟨child :: pids, by simp, by simp [count]⟩

/-- How a launch can go: it is refused before anything is asked for, or a pipe cannot be made, or a child cannot be made, or all are
made. -/
inductive LaunchCourse (S : System σ) (shell : String) (p : Pipeline) (s : Session σ) :
    Except ExecError Launched → Session σ → Prop
  | empty (none : p.stages = []) : LaunchCourse S shell p s (.error .empty) s
  | unusable {stage : Stage} (some : p.stages ≠ []) (found : p.unusable? = .some stage) :
    LaunchCourse S shell p s (.error (.invalidArgument stage.program)) s
  | unpiped {cause : Errno} {s' : Session σ} (some : p.stages ≠ []) (usable : p.unusable? = none)
    (opened : openPipes S (p.stages.length - 1) s = (.error cause, s')) : LaunchCourse S shell p s (.error (.pipe cause)) s'
  | unforked {pipes : PipeSet} {e : ExecError} {s₁ s' : Session σ} (some : p.stages ≠ []) (usable : p.unusable? = none)
    (opened : openPipes S (p.stages.length - 1) s = (.ok pipes, s₁)) (foreground claimsTerminal : Bool)
    (forked : forkStages S shell foreground claimsTerminal p.stages 0 pipes [] s₁ = (.error e, s')) :
    LaunchCourse S shell p s (.error e) s'
  | launched {pipes : PipeSet} {leader : Pid} {rest : List Pid} {s₁ s' : Session σ} (some : p.stages ≠ [])
    (usable : p.unusable? = none) (opened : openPipes S (p.stages.length - 1) s = (.ok pipes, s₁))
    (foreground claimsTerminal : Bool)
    (forked : forkStages S shell foreground claimsTerminal p.stages 0 pipes [] s₁ = (.ok (leader :: rest), s')) :
    LaunchCourse S shell p s (.ok ⟨leader, leader :: rest⟩) s'

/-- Every launch goes in one of these ways. -/
theorem launch_course {shell : String} {p : Pipeline} {s s' : Session σ} {r : Except ExecError Launched}
    (hr : launch S shell p s = (r, s')) : LaunchCourse S shell p s r s' := by
  by_cases hp : p.stages = []
  · rw [launch, if_pos (by simp [Pipeline.isEmpty, hp])] at hr
    cases hr
    exact .empty hp
  rw [launch, if_neg (by simp [Pipeline.isEmpty, hp])] at hr
  cases hu : p.unusable? with
  | some stage =>
    rw [hu] at hr
    cases hr
    exact .unusable hp hu
  | none =>
    rw [hu] at hr
    dsimp only at hr
    rw [bind_apply] at hr
    generalize hq : openPipes S (p.stages.length - 1) s = opened at hr
    obtain ⟨cause | pipes, s₁⟩ := opened
    · cases hr
      exact .unpiped hp hu hq
    · dsimp only at hr
      rw [bind_apply, bind_apply] at hr
      have looked : (look S.terminalAttached s₁).2 = s₁ := rfl
      rw [looked] at hr
      generalize hf : forkStages S shell _ _ p.stages 0 pipes [] s₁ = forked at hr
      obtain ⟨e | made, s₂⟩ := forked
      · cases hr
        exact .unforked hp hu hq _ _ hf
      · obtain ⟨pids, rfl, count⟩ := forkStages_ok [] hf
        cases made with
        | nil => exact absurd (List.length_eq_zero_iff.1 count.symm) hp
        | cons leader rest =>
          cases hr
          exact .launched hp hu hq _ _ hf

/-- Where a child is made, it is wired up and the pipe before it is released; where it cannot be made, nothing happens to the wiring. -/
theorem forkNext_wired {before : Holding} (shell : String) (foreground claimsTerminal : Bool) (stage : Stage) (made : List Pid)
    (s : Session (σ × Wiring)) (hn : made.length ≤ s.world.2.pipes.length)
    (h : s.world.2.Distinct → Forked before (made.length - 1) made s.world.2) {pipes : PipeSet}
    (hpipes : pipes = .keeping s.world.2.pipes (made.length - 1)) :
    match forkNext S.wired (plan shell foreground claimsTerminal s.environment stage pipes made) pipes made s with
    | (.error _, s') => s'.world.2 = s.world.2
    | (.ok (child, pipes), s') => pipes = .keeping s'.world.2.pipes made.length ∧ s'.world.2.pipes = s.world.2.pipes ∧
        (s'.world.2.Distinct → Forked before made.length (made ++ [child]) s'.world.2) := by
  generalize hp : plan shell foreground claimsTerminal s.environment stage pipes made = p
  have asked : ask (S.wired.fork p) s = ((S.fork p s.world.1).1, { s with world := (S.wired.fork p s.world).2 }) := rfl
  rw [forkNext, bind_apply, asked]
  cases hf : (S.fork p s.world.1).1 with
  | error cause =>
    show (S.wired.fork p s.world).2.2 = s.world.2
    simp only [System.wired, System.noted, hf]
  | ok child =>
    have forked : (S.wired.fork p s.world).2.2 = s.world.2.fork p child := by
      simp only [System.wired, System.noted, hf]
    have wired : s.world.2.Distinct → Child.Wired before s.world.2.pipes made.length
        ⟨child, s.world.2.held, p.steps.foldl Holding.after s.world.2.held⟩ := fun distinct =>
      wired_fork distinct (h distinct).holds hn p (hp ▸ hpipes ▸ rfl) (hp ▸ hpipes ▸ rfl) (hp ▸ hpipes ▸ rfl) child
    dsimp only
    rw [bind_apply]
    generalize hs : (tell (S.wired.placeInGroup child (made.head?.getD child)) { s with world := (S.wired.fork p s.world).2 }).2 = s₁
    have hw : s₁.world.2 = s.world.2.fork p child := by
      rw [← hs]
      exact forked
    have holds : s.world.2.Distinct → s₁.world.2.Holds before (made.length - 1) := by
      intro distinct
      have held := (h distinct).holds
      rw [hw]
      exact ⟨held.kept, held.released, held.others, held.closed⟩
    have all : ∀ w : Wiring, w.pipes = s₁.world.2.pipes → w.children = s₁.world.2.children →
        (s.world.2.Distinct → w.Holds before made.length) → w.Distinct → Forked before made.length (made ++ [child]) w := by
      intro w pipes children held distinct
      have pipes : w.pipes = s.world.2.pipes := by rw [pipes, hw, Wiring.fork]
      have distinct : s.world.2.Distinct := distinct.of_prefix (pipes ▸ List.prefix_refl _)
      exact (h distinct).snoc pipes (by rw [children, hw, Wiring.fork]) (wired distinct) (held distinct)
    have kept : s₁.world.2.pipes = s.world.2.pipes := by rw [hw, Wiring.fork]
    cases hi : made.length with
    | zero =>
      rw [hi] at holds all hpipes
      exact ⟨by rw [hpipes, kept], kept, all s₁.world.2 rfl rfl holds⟩
    | succ i =>
      rw [hi, Nat.add_sub_cancel] at holds hpipes
      rw [hi] at all hn
      obtain ⟨s₂, ran, kept₂, children₂, released⟩ := releasePipe_wired (S := S) s₁ (kept ▸ hn) fun distinct =>
        holds (distinct.of_prefix (kept ▸ List.prefix_refl _))
      rw [kept] at ran
      dsimp only
      rw [bind_apply, hpipes, ran]
      refine ⟨rfl, kept₂.trans kept, all s₂.world.2 kept₂ children₂ fun distinct => released ?_⟩
      exact distinct.of_prefix ((kept₂.trans kept) ▸ List.prefix_refl _)

/-- The children are made one after the other, until all stages have one or one cannot be made. Either way all pipes are released. -/
theorem forkStages_wired {before : Holding} (shell : String) (foreground claimsTerminal : Bool) (stages : List Stage)
    (made : List Pid) (s : Session (σ × Wiring)) (hn : made.length + stages.length = s.world.2.pipes.length + 1)
    (h : s.world.2.Distinct → Forked before (made.length - 1) made s.world.2) {r : Except ExecError (List Pid)}
    {s' : Session (σ × Wiring)}
    (hr : forkStages S.wired shell foreground claimsTerminal stages made.length (.keeping s.world.2.pipes (made.length - 1)) made s =
      (r, s')) :
    s'.world.2.pipes = s.world.2.pipes ∧
    (s'.world.2.Distinct → ∃ pids, Forked before s'.world.2.pipes.length pids s'.world.2 ∧
      ∀ all, r = .ok all → all = pids ∧ pids.length = made.length + stages.length) := by
  induction stages generalizing made s with
  | nil =>
    cases hr
    rw [List.length_nil, Nat.add_zero] at hn
    obtain ⟨pipes, forked⟩ := closeAll_forked (S := S) s (by omega) h
    refine ⟨pipes, fun distinct => ⟨made, forked distinct, fun all ha => ?_⟩⟩
    cases ha
    exact ⟨rfl, rfl⟩
  | cons stage rest ih =>
    rw [List.length_cons] at hn
    have one := forkNext_wired (S := S) shell foreground claimsTerminal stage made s (by omega) h rfl
    rw [forkStages_cons] at hr
    generalize forkNext S.wired _ _ made s = q at hr one
    obtain ⟨cause | ⟨child, pipes⟩, s₁⟩ := q
    · dsimp only at hr
      have left := abandon_wired (S := S) made s₁
      rw [one] at left
      generalize (abandon S.wired made s₁).2 = s₂ at hr left
      cases hr
      rw [← left] at h hn ⊢
      obtain ⟨pipes, forked⟩ := closeAll_forked (S := S) s₂ (by omega) h
      exact ⟨pipes, fun distinct => ⟨made, forked distinct, nofun⟩⟩
    · obtain ⟨rfl, pipes, forked⟩ := one
      have length : (made ++ [child]).length = made.length + 1 := List.length_append
      have index : (made ++ [child]).length - 1 = made.length := by rw [length, Nat.add_sub_cancel]
      obtain ⟨pipes', all⟩ := ih (made ++ [child]) s₁ (by rw [length, pipes]; omega) (index ▸ forked) (by rw [index, length]; exact hr)
      refine ⟨pipes'.trans pipes, fun distinct => ?_⟩
      obtain ⟨pids, all_forked, ok⟩ := all distinct
      refine ⟨pids, all_forked, fun ps hps => ?_⟩
      obtain ⟨he, hl⟩ := ok ps hps
      exact ⟨he, by rw [hl, length, List.length_cons]; omega⟩

/-- What a launch of so many stages leaves: all pipes are released, every child that was made is wired up, and where nothing failed, all
pipes and all children were made. -/
structure Accomplished (before : Holding) (n : Nat) (r : Except ExecError Launched) (w : Wiring) : Prop where
  holds : w.Holds before w.pipes.length
  wired : ∀ (i : Nat) (c : Child), w.children[i]? = some c → w.pipes.length + 1 = n ∧ c.Wired before w.pipes i
  complete : ∀ l, r = .ok l → w.pipes.length + 1 = n ∧ w.children.map Child.pid = l.pids ∧ l.pids.length = n

/-- A launch with all its pipes accomplishes that, if it gives the children that it made. -/
theorem forkStages_accomplished {before : Holding} {shell : String} {foreground claimsTerminal : Bool} {stages : List Stage}
    {s s' : Session (σ × Wiring)} {result : Except ExecError (List Pid)} {r : Except ExecError Launched}
    (hr : forkStages S.wired shell foreground claimsTerminal stages 0 (.keeping s.world.2.pipes 0) [] s = (result, s'))
    (hn : stages.length = s.world.2.pipes.length + 1) (h : s.world.2.Distinct → Forked before 0 [] s.world.2)
    (distinct : s'.world.2.Distinct) (complete : ∀ l, r = .ok l → result = .ok l.pids) :
    Accomplished before stages.length r s'.world.2 := by
  obtain ⟨pipes, all⟩ := forkStages_wired shell _ _ stages [] s (by rw [hn, List.length_nil]; omega) h hr
  obtain ⟨pids, forked, ok⟩ := all distinct
  have count : s'.world.2.pipes.length + 1 = stages.length := by rw [pipes, hn]
  refine ⟨forked.holds, fun i c hc => ⟨count, forked.wired i c hc⟩, fun l hl => ?_⟩
  obtain ⟨rfl, made⟩ := ok l.pids (complete l hl)
  rw [List.length_nil, Nat.zero_add] at made
  exact ⟨count, forked.pids, made⟩

/-- A launch accomplishes that, whatever becomes of it. -/
theorem launch_wired {before : Holding} (shell : String) (p : Pipeline) (s : Session (σ × Wiring))
    (h : s.world.2 = { held := before }) {r : Except ExecError Launched} {s' : Session (σ × Wiring)}
    (hr : launch S.wired shell p s = (r, s')) (distinct : s'.world.2.Distinct) :
    Accomplished before p.stages.length r s'.world.2 := by
  have start : s.world.2.Holds before 0 := by
    rw [h]
    exact ⟨nofun, nofun, fun _ _ => rfl, rfl⟩
  have none_made : s.world.2.pipes = [] ∧ s.world.2.children = [] := by
    rw [h]
    exact ⟨rfl, rfl⟩
  have refused : (∀ l, r ≠ .ok l) → Accomplished before p.stages.length r s.world.2 := by
    intro hl
    refine ⟨?_, ?_, fun l hr => absurd hr (hl l)⟩
    · rw [none_made.1]
      exact start
    · rw [none_made.2]
      nofun
  have slots : PipeSet.keeping s.world.2.pipes 0 = {} := by
    rw [none_made.1]
    rfl
  -- With all its pipes, the launch goes on to the children.
  have opened {pipes : PipeSet} {s₁ : Session (σ × Wiring)} (some : p.stages ≠ [])
      (hq : openPipes S.wired (p.stages.length - 1) s = (.ok pipes, s₁)) :
      pipes = .keeping s₁.world.2.pipes 0 ∧ p.stages.length = s₁.world.2.pipes.length + 1 ∧
        (s₁.world.2.Distinct → Forked before 0 [] s₁.world.2) := by
    rw [openPipes, ← slots] at hq
    obtain ⟨children, opened, -⟩ := openPipesFrom_wired (p.stages.length - 1) s (fun _ => start) hq
    rw [none_made.2] at children
    obtain ⟨rfl, length, holds⟩ := opened pipes rfl
    have stages : 0 < p.stages.length := List.length_pos_of_ne_nil some
    rw [none_made.1, List.length_nil] at length
    exact ⟨rfl, by omega, fun distinct => ⟨holds distinct, by rw [children]; nofun, by rw [children]; rfl⟩⟩
  cases launch_course hr with
  | empty none => exact refused nofun
  | unusable some found => exact refused nofun
  | unpiped some usable hq =>
    rw [openPipes, ← slots] at hq
    obtain ⟨children, -, failed⟩ := openPipesFrom_wired (p.stages.length - 1) s (fun _ => start) hq
    rw [none_made.2] at children
    refine ⟨failed _ rfl distinct, ?_, nofun⟩
    rw [children]
    nofun
  | unforked some usable hq foreground claimsTerminal hf =>
    obtain ⟨rfl, stages, first⟩ := opened some hq
    exact forkStages_accomplished hf stages first distinct nofun
  | launched some usable hq foreground claimsTerminal hf =>
    obtain ⟨rfl, stages, first⟩ := opened some hq
    exact forkStages_accomplished hf stages first distinct fun l hl => by rw [← Except.ok.inj hl]

/-! ### Who holds an end -/

/-- What was open before the launch is no end of its pipes. -/
theorem inheriting_ne (ds : List Descriptor) (d : Descriptor) (i : Nat) :
    Holding.inheriting ds d ≠ some (.reading i) ∧ Holding.inheriting ds d ≠ some (.writing i) := by
  rw [Holding.inheriting]
  split <;> exact ⟨nofun, nofun⟩

variable {ds : List Descriptor} {qs : List Pipe} {c : Child} {i k : Nat}

/-- A child holds the end that a pipe is written to exactly if the pipe is the one after it, and at 1. -/
theorem holds_writing_iff (h : c.Wired (.inheriting ds) qs k) (hi : i < qs.length) (d : Descriptor) :
    c.holds d = some (.writing i) ↔ k = i ∧ d = 1 := by
  have none_inherited := fun d => (inheriting_ne ds d i).2
  match d with
  | 0 =>
    have : c.holds 0 ≠ some (.writing i) := by
      rw [h.input]
      split
      · exact none_inherited 0
      · nofun
    exact ⟨fun he => absurd he this, fun ⟨_, h0⟩ => absurd h0 (by decide)⟩
  | 1 =>
    rw [h.output]
    split
    · exact ⟨fun he => ⟨Endpoint.writing.inj (Option.some.inj he), rfl⟩, fun ⟨he, _⟩ => by rw [he]⟩
    · exact ⟨fun he => absurd he (none_inherited 1), fun ⟨he, _⟩ => absurd (he ▸ hi) ‹_›⟩
  | d + 2 =>
    have : c.holds (d + 2) ≠ some (.writing i) := by
      rw [h.others (d + 2) (Nat.le_add_left 2 d)]
      split
      · nofun
      · exact none_inherited _
    exact ⟨fun he => absurd he this, nofun⟩

/-- A child holds the end that a pipe is read from exactly if the pipe is the one before it, and at 0. -/
theorem holds_reading_iff (h : c.Wired (.inheriting ds) qs k) (d : Descriptor) :
    c.holds d = some (.reading i) ↔ k = i + 1 ∧ d = 0 := by
  have none_inherited := fun d => (inheriting_ne ds d i).1
  match d with
  | 0 =>
    rw [h.input]
    split
    · exact ⟨fun he => absurd he (none_inherited 0), fun ⟨he, _⟩ => absurd he (by omega)⟩
    · refine ⟨fun he => ⟨?_, rfl⟩, fun ⟨he, _⟩ => by rw [he]; rfl⟩
      have := Endpoint.reading.inj (Option.some.inj he)
      omega
  | 1 =>
    have : c.holds 1 ≠ some (.reading i) := by
      rw [h.output]
      split
      · nofun
      · exact none_inherited 1
    exact ⟨fun he => absurd he this, fun ⟨_, h0⟩ => absurd h0 (by decide)⟩
  | d + 2 =>
    have : c.holds (d + 2) ≠ some (.reading i) := by
      rw [h.others (d + 2) (Nat.le_add_left 2 d)]
      split
      · nofun
      · exact none_inherited _
    exact ⟨fun he => absurd he this, nofun⟩

end WiringAux

open WiringAux

/-- Whatever the system answers, a launch wires its children up, if the descriptors of the pipes that it makes are all different and none
is a standard stream. Each child is given the pipe before it and the one after it; it comes to read from the one and to write to the
other, the first to read and the last to write where the shell does, and no other end of a pipe is open in it. In the end the shell holds
what it held before, and it has closed each end once; if nothing fails, there is a pipe between every two stages and a child for each.
So the end of a pipe that is written to is held by the child before it and by nothing else, the one that is read from by the child
after it. -/
theorem launch_wires (shell : String) (p : Pipeline) {ds : List Descriptor} {s : Session (σ × Wiring)}
    (hs : s.world.2 = { held := .inheriting ds }) (distinct : (launch S.wired shell p s).2.world.2.Distinct) :
    let r := (launch S.wired shell p s).1
    let w := (launch S.wired shell p s).2.world.2
    (∀ (i : Nat) (c : Child), w.children[i]? = some c → w.pipes.length + 1 = p.stages.length ∧ c.Wired (.inheriting ds) w.pipes i) ∧
    (∀ d, w.held d = if d ∈ w.ends then none else Holding.inheriting ds d) ∧ w.closed = w.ends ∧
    (∀ l, r = .ok l → w.pipes.length + 1 = p.stages.length ∧ w.children.map Child.pid = l.pids ∧ l.pids.length = p.stages.length) ∧
    (∀ i < w.pipes.length, (∀ d, w.held d ≠ some (.reading i) ∧ w.held d ≠ some (.writing i)) ∧
      ∀ (k : Nat) (c : Child), w.children[k]? = some c → ∀ d,
        (c.holds d = some (.writing i) ↔ k = i ∧ d = 1) ∧ (c.holds d = some (.reading i) ↔ k = i + 1 ∧ d = 0)) := by
  intro r w
  have done : Accomplished (.inheriting ds) p.stages.length r w := launch_wired shell p s hs rfl distinct
  have shell_holds : ∀ d, w.held d = if d ∈ w.ends then none else Holding.inheriting ds d := done.holds.held_eq
  have closed : w.closed = w.ends := by rw [done.holds.closed, List.take_length, Wiring.ends]
  refine ⟨done.wired, shell_holds, closed, done.complete, fun i hi => ⟨fun d => ?_, fun k c hc d => ?_⟩⟩
  · rw [shell_holds]
    split
    · exact ⟨(Option.some_ne_none _).symm, (Option.some_ne_none _).symm⟩
    · exact inheriting_ne ds d i
  · have wired := (done.wired k c hc).2
    exact ⟨holds_writing_iff wired hi d, holds_reading_iff wired d⟩

/-- A system that makes pipes and children and counts on in the descriptors and numbers that it gives them. -/
def System.counting : System (Unit × Nat) :=
  { System.idle.beside Nat with
    makePipe := fun w => (.ok (w.2, w.2 + 1), (w.1, w.2 + 2))
    fork := fun _ w => (.ok w.2, (w.1, w.2 + 1)) }

/-- Three stages with the descriptors and the numbers that are free next: the launch succeeds, with a child for each stage. The first child
writes to the first pipe, the second one reads from it and writes to the second pipe, the third one reads from that, and the ends
that they were given, 3 to 6, are closed in all of them and in the shell. -/
theorem launch_wires_counting :
    let p : Pipeline := { stages := [⟨"ls", []⟩, ⟨"sort", ["-r"]⟩, ⟨"wc", []⟩] }
    let s : Session ((Unit × Nat) × Wiring) := { world := (((), 3), { held := .inheriting [0, 1, 2] }) }
    let r := (launch System.counting.wired "chirsh" p s).1
    let w := (launch System.counting.wired "chirsh" p s).2.world.2
    w.Distinct ∧ w.ends = [3, 4, 5, 6] ∧ w.closed = [3, 4, 5, 6] ∧ r = .ok ⟨7, [7, 8, 9]⟩ ∧ w.children.map Child.pid = [7, 8, 9] ∧
    (∀ (i : Nat) (c : Child), w.children[i]? = some c → c.Wired (.inheriting [0, 1, 2]) w.pipes i) ∧
    (w.children.map fun c => [0, 1, 2, 3, 4, 5, 6].map c.holds) =
      [[some (.inherited 0), some (.writing 0), some (.inherited 2), none, none, none, none],
        [some (.reading 0), some (.writing 1), some (.inherited 2), none, none, none, none],
        [some (.reading 1), some (.inherited 1), some (.inherited 2), none, none, none, none]] := by
  intro p s r w
  have ends : w.ends = [3, 4, 5, 6] := by decide +kernel
  have distinct : w.Distinct := ⟨by rw [ends]; decide, by rw [ends]; decide⟩
  have start : s.world.2 = { held := .inheriting [0, 1, 2] } := rfl
  have result : r = .ok ⟨7, [7, 8, 9]⟩ := by decide +kernel
  obtain ⟨wired, -, closed, complete, -⟩ := launch_wires "chirsh" p start distinct
  obtain ⟨-, pids, -⟩ := complete _ result
  exact ⟨distinct, ends, closed.trans ends, result, pids, fun i c hc => (wired i c hc).2, by decide +kernel⟩

end JobShell
