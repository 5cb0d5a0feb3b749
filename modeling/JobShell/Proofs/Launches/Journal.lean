import JobShell.Proofs.Launches.Wiring

/-!
# The journal of a launch

A launch asks the system for pipes and for children, and tells it what to close and which group to place a child in. A journal kept
beside the system has all of this in order, with the answers (`System.journaled`).

`launch_all_or_nothing` reads off the journal that a launch makes all of its children or none. Where the stages are refused, nothing is
asked at all; where a pipe cannot be made, the ones before it are closed again and no child is made; and all pipes are made before the
first child, so that nothing but a child itself can fail from there on.
-/

namespace JobShell

open Act WiringAux

variable {σ : Type} {S : System σ}

/-- A request of a launch, with its answer where it has one. -/
inductive LaunchCall where
  | makePipe (answer : Except Errno (Descriptor × Descriptor))
  | close (d : Descriptor)
  | fork (plan : ChildPlan) (answer : Except Errno Pid)
  | place (pid pgid : Pid)

namespace LaunchCall

/-- The answer to a request for a pipe. -/
def pipe? : LaunchCall → Option (Except Errno (Descriptor × Descriptor))
  | .makePipe answer => some answer
  | _ => none

/-- The stage of a child that was asked for, and the answer. -/
def fork? : LaunchCall → Option (Stage × Except Errno Pid)
  | .fork plan answer => some (plan.stage, answer)
  | _ => none

end LaunchCall

/-- The pipes that these requests asked for. -/
def pipesIn (calls : List LaunchCall) : List (Except Errno (Descriptor × Descriptor)) := calls.filterMap LaunchCall.pipe?

/-- The children that these requests asked for. -/
def forksIn (calls : List LaunchCall) : List (Stage × Except Errno Pid) := calls.filterMap LaunchCall.fork?

@[simp] theorem pipesIn_append (calls later : List LaunchCall) : pipesIn (calls ++ later) = pipesIn calls ++ pipesIn later :=
  List.filterMap_append

@[simp] theorem forksIn_append (calls later : List LaunchCall) : forksIn (calls ++ later) = forksIn calls ++ forksIn later :=
  List.filterMap_append

/-- To close descriptors asks for no pipe. -/
@[simp] theorem pipesIn_close (ds : List Descriptor) : pipesIn (ds.map .close) = [] := by simp [pipesIn, LaunchCall.pipe?]

/-- To close descriptors asks for no child. -/
@[simp] theorem forksIn_close (ds : List Descriptor) : forksIn (ds.map .close) = [] := by simp [forksIn, LaunchCall.fork?]

/-- The system with a journal of what launches ask for. -/
def System.journaled (S : System σ) : System (σ × List LaunchCall) :=
  { S.beside (List LaunchCall) with
    makePipe := noted S.makePipe fun answer calls => calls ++ [.makePipe answer]
    closeDescriptor := fun d w => (S.closeDescriptor d w.1, w.2 ++ [.close d])
    fork := fun plan => noted (S.fork plan) fun answer calls => calls ++ [.fork plan answer]
    placeInGroup := fun pid pgid w => (S.placeInGroup pid pgid w.1, w.2 ++ [.place pid pgid]) }

/-- The answers to so many requests for a pipe, made one right after the other. -/
def System.pipeAnswers (S : System σ) : Nat → σ → List (Except Errno (Descriptor × Descriptor))
  | 0, _ => []
  | count + 1, w => (S.makePipe w).1 :: S.pipeAnswers count (S.makePipe w).2

/-- The answer that makes this pipe. -/
def Pipe.answer (q : Pipe) : Except Errno (Descriptor × Descriptor) := .ok (q.read, q.write)

/-- The request that made this pipe. -/
def Pipe.call (q : Pipe) : LaunchCall := .makePipe q.answer

/-- None of the arguments of the stage holds the character NUL. -/
def Stage.IsUsable (s : Stage) : Prop := ∀ a ∈ s.arguments, '\x00' ∉ a.toList

namespace JournalAux

variable {s s' : Session (σ × List LaunchCall)}

/-! ## Arguments -/

/-- A stage is usable where none of its arguments holds NUL. -/
theorem any_containsNul (stage : Stage) : stage.arguments.any containsNul = false ↔ stage.IsUsable := by
  simp [Stage.IsUsable, containsNul, List.any_eq_false]

/-- Where all stages are usable, none is found that is not. -/
theorem unusable?_eq_none {p : Pipeline} : p.unusable? = none ↔ ∀ t ∈ p.stages, t.IsUsable := by
  unfold Pipeline.unusable?
  rw [List.find?_eq_none]
  constructor
  · intro h t ht
    rw [← any_containsNul]
    simpa using h t ht
  · intro h t ht
    simp [(any_containsNul t).2 (h t ht)]

/-- The first stage that is not usable is found. -/
theorem unusable?_eq_some {p : Pipeline} {before after : List Stage} {stage : Stage} (hp : p.stages = before ++ stage :: after)
    (hb : ∀ t ∈ before, t.IsUsable) (hs : ¬stage.IsUsable) : p.unusable? = some stage := by
  have none_before : before.find? (fun s => s.arguments.any containsNul) = none :=
    unusable?_eq_none (p := ⟨before, false⟩).2 hb
  have found : stage.arguments.any containsNul = true := by
    rw [← Bool.not_eq_false, any_containsNul]
    exact hs
  unfold Pipeline.unusable?
  rw [hp, List.find?_append, none_before]
  simp [found]

/-! ## Pipes -/

/-- Each descriptor that is closed is entered. -/
theorem closeAll_journaled (ds : List Descriptor) (s : Session (σ × List LaunchCall)) :
    (closeAll S.journaled ds s).2.world.2 = s.world.2 ++ ds.map .close := by
  show (ds.foldl (fun world d => S.journaled.closeDescriptor d world) s.world).2 = s.world.2 ++ ds.map .close
  generalize s.world = world
  induction ds generalizing world with
  | nil => exact (List.append_nil _).symm
  | cons d rest ih =>
    rw [List.foldl_cons, ih, List.map_cons]
    exact List.append_assoc ..

/-- A request for a pipe is answered and entered. -/
theorem ask_makePipe (s : Session (σ × List LaunchCall)) :
    ask S.journaled.makePipe s = ((S.makePipe s.world.1).1,
      { s with world := ((S.makePipe s.world.1).2, s.world.2 ++ [.makePipe (S.makePipe s.world.1).1]) }) := rfl

/-- A pipe that is made is entered, and the others are made after it. -/
theorem openPipesFrom_next {q : Pipe} (h : (S.makePipe s.world.1).1 = q.answer) :
    ∃ s₁, s₁.world = ((S.makePipe s.world.1).2, s.world.2 ++ [q.call]) ∧ ∀ made count,
      openPipesFrom S.journaled (.keeping made 0) (count + 1) s = openPipesFrom S.journaled (.keeping (made ++ [q]) 0) count s₁ := by
  refine ⟨{ s with world := ((S.makePipe s.world.1).2, s.world.2 ++ [q.call]) }, rfl, fun made count => ?_⟩
  rw [openPipesFrom, bind_apply, ask_makePipe, h]
  show openPipesFrom S.journaled (PipeSet.mk ((PipeSet.keeping made 0).slots ++ [some q])) count _ = _
  rw [PipeSet.slots_keeping_concat]
  rfl

/-- Where every request is answered with a pipe, all are made, and nothing else is asked for. -/
theorem openPipesFrom_made {qs : List Pipe} (made : List Pipe) (h : S.pipeAnswers qs.length s.world.1 = qs.map Pipe.answer) :
    ∃ s', openPipesFrom S.journaled (.keeping made 0) qs.length s = (.ok (.keeping (made ++ qs) 0), s') ∧
      s'.world.2 = s.world.2 ++ qs.map Pipe.call := by
  induction qs generalizing made s with
  | nil => exact ⟨s, by rw [List.append_nil]; rfl, (List.append_nil _).symm⟩
  | cons q rest ih =>
    obtain ⟨first, others⟩ := List.cons.inj h
    obtain ⟨s₁, world, next⟩ := openPipesFrom_next first
    obtain ⟨s', opened, entered⟩ := ih (s := s₁) (made ++ [q]) (by rw [world]; exact others)
    refine ⟨s', ?_, ?_⟩
    · rw [List.length_cons, next, opened, List.append_assoc]
      rfl
    · rw [entered, world]
      exact List.append_assoc ..

/-- Where a request fails, no more are made, and all that there are are closed, one end after the other. -/
theorem openPipesFrom_failed {qs : List Pipe} {e : Errno} (made : List Pipe) (count : Nat) (hc : qs.length < count)
    (h : S.pipeAnswers (qs.length + 1) s.world.1 = qs.map Pipe.answer ++ [.error e]) :
    ∃ s', openPipesFrom S.journaled (.keeping made 0) count s = (.error e, s') ∧
      s'.world.2 = s.world.2 ++ (qs.map Pipe.call ++ .makePipe (.error e) :: ((made ++ qs).flatMap Pipe.ends).map .close) := by
  obtain ⟨count, rfl⟩ := Nat.exists_eq_succ_of_ne_zero (Nat.ne_of_gt (Nat.zero_lt_of_lt hc))
  induction qs generalizing made s count with
  | nil =>
    have failed : (S.makePipe s.world.1).1 = .error e := (List.cons.inj h).1
    rw [openPipesFrom, bind_apply, ask_makePipe, failed]
    refine ⟨_, rfl, (closeAll_journaled _ _).trans ?_⟩
    rw [PipeSet.openDescriptors_keeping]
    simp
  | cons q rest ih =>
    rw [List.length_cons] at hc
    obtain ⟨first, others⟩ := List.cons.inj h
    obtain ⟨s₁, world, next⟩ := openPipesFrom_next first
    obtain ⟨count, rfl⟩ := Nat.exists_eq_succ_of_ne_zero (n := count) (by omega)
    obtain ⟨s', opened, entered⟩ := ih (s := s₁) (made ++ [q]) (by rw [world]; exact others) count (by omega)
    refine ⟨s', ?_, ?_⟩
    · rw [next, opened]
    · rw [entered, world]
      simp

/-! ## Children -/

/-- The session goes on, and no child is asked for. -/
def Childless (s s' : Session (σ × List LaunchCall)) : Prop := ∃ later, s'.world.2 = s.world.2 ++ later ∧ forksIn later = []

/-- Where nothing is asked for, no child is. -/
theorem childless_of_eq (h : s'.world.2 = s.world.2) : Childless s s' := ⟨[], by rw [h, List.append_nil], rfl⟩

/-- What is known of the children asked for stays the same. -/
theorem Childless.forks (h : Childless s s') : forksIn s'.world.2 = forksIn s.world.2 := by
  obtain ⟨later, entered, none⟩ := h
  rw [entered, forksIn_append, none, List.append_nil]

/-- Only a launch asks for children. -/
theorem childless_frame (S : System σ) : SessionFrame S.journaled Childless where
  refl _ := childless_of_eq rfl
  trans := by
    rintro s s' s'' ⟨later, entered, none⟩ ⟨later', entered', none'⟩
    exact ⟨later ++ later', by rw [entered', entered, List.append_assoc], by rw [forksIn_append, none, none']; rfl⟩
  environment _ _ := childless_of_eq rfl
  asked h := by
    cases h with
    | makePipe => exact ⟨[.makePipe _], rfl, rfl⟩
    | closeDescriptor d => exact ⟨[.close d], rfl, rfl⟩
    | _ => exact childless_of_eq rfl
  announced _ _ := childless_of_eq rfl
  collected _ _ := childless_of_eq rfl
  timed _ _ _ _ := childless_of_eq rfl
  ended _ _ _ _ := childless_of_eq rfl
  finished _ _ _ := childless_of_eq rfl
  suspended _ _ _ _ _ := childless_of_eq rfl
  resumed _ _ _ _ _ := childless_of_eq rfl
  noted _ _ := childless_of_eq rfl
  left _ := childless_of_eq rfl

/-- A child that is asked for is entered with the answer; where there is one, it is placed, and the shell lets go of a pipe at most. -/
theorem forkNext_journaled (plan : ChildPlan) (pipes : PipeSet) (made : List Pid) (s : Session (σ × List LaunchCall)) :
    match forkNext S.journaled plan pipes made s with
    | (.error cause, s') => s'.world.2 = s.world.2 ++ [.fork plan (.error cause)]
    | (.ok (child, _), s') =>
      ∃ later, s'.world.2 = s.world.2 ++ .fork plan (.ok child) :: later ∧ pipesIn later = [] ∧ forksIn later = [] := by
  have asked : ask (S.journaled.fork plan) s = ((S.fork plan s.world.1).1,
    { s with world := ((S.fork plan s.world.1).2, s.world.2 ++ [.fork plan (S.fork plan s.world.1).1]) }) := rfl
  rw [forkNext, bind_apply, asked]
  cases hf : (S.fork plan s.world.1).1 with
  | error cause => rfl
  | ok child =>
    cases made.length with
    | zero => exact ⟨[.place child (made.head?.getD child)], List.append_assoc .., rfl, rfl⟩
    | succ i =>
      refine ⟨.place child (made.head?.getD child) :: (pipes.release i).2.map .close, ?_, pipesIn_close _, forksIn_close _⟩
      refine (closeAll_journaled (pipes.release i).2 _).trans ?_
      show (s.world.2 ++ [_]) ++ [_] ++ _ = _
      simp

/-- Where all stages have a child, the children were asked for in the order of the stages, and no pipe was asked for. Where one has
none, it was asked for, and the answer was an error. -/
theorem forkStages_journaled {shell : String} {foreground claimsTerminal : Bool} {stages : List Stage} {pipes : PipeSet}
    (made : List Pid) {r : Except ExecError (List Pid)}
    (hr : forkStages S.journaled shell foreground claimsTerminal stages made.length pipes made s = (r, s')) :
    ∃ later, s'.world.2 = s.world.2 ++ later ∧
      (∀ all, r = .ok all → ∃ pids, all = made ++ pids ∧ pids.length = stages.length ∧ pipesIn later = [] ∧
        forksIn later = stages.zip (pids.map .ok)) ∧
      (∀ e, r = .error e → ∃ stage cause, (stage, .error cause) ∈ forksIn later) := by
  induction stages generalizing pipes made s with
  | nil =>
    cases hr
    refine ⟨_, closeAll_journaled _ s, fun all ha => ?_, nofun⟩
    exact ⟨[], by simpa using (Except.ok.inj ha).symm, rfl, pipesIn_close _, forksIn_close _⟩
  | cons stage rest ih =>
    rw [forkStages_cons] at hr
    generalize hp : plan shell foreground claimsTerminal s.environment stage pipes made = child_plan at hr
    have planned : child_plan.stage = stage := by rw [← hp]; rfl
    have one := forkNext_journaled (S := S) child_plan pipes made s
    generalize forkNext S.journaled child_plan pipes made s = next at hr one
    obtain ⟨cause | ⟨child, left⟩, s₁⟩ := next
    · have frame := childless_frame S
      obtain ⟨rfl, later, entered, -⟩ : r = .error (.fork cause) ∧ Childless s₁ s' := by
        cases hr
        exact ⟨rfl, frame.trans (frame.abandon made s₁) (frame.closeAll _ _)⟩
      refine ⟨.fork child_plan (.error cause) :: later, ?_, nofun, fun e _ => ⟨stage, cause, ?_⟩⟩
      · rw [entered, one]
        simp
      · rw [← planned]
        exact List.mem_cons_self
    · obtain ⟨placed, entered, no_pipe, no_fork⟩ := one
      have length : (made ++ [child]).length = made.length + 1 := List.length_append
      rw [← length] at hr
      obtain ⟨later, entered', complete, failed⟩ := ih _ hr
      have forks : forksIn (.fork child_plan (.ok child) :: (placed ++ later)) = (stage, .ok child) :: forksIn later := by
        show (child_plan.stage, .ok child) :: forksIn (placed ++ later) = _
        rw [forksIn_append, no_fork, planned]
        rfl
      have no_pipe' : pipesIn (.fork child_plan (.ok child) :: (placed ++ later)) = pipesIn later := by
        show pipesIn (placed ++ later) = _
        rw [pipesIn_append, no_pipe]
        rfl
      refine ⟨.fork child_plan (.ok child) :: (placed ++ later), by rw [entered', entered]; simp, ?_, ?_⟩
      · intro all ha
        obtain ⟨pids, rfl, count, no_pipe, forked⟩ := complete all ha
        exact ⟨child :: pids, by simp, by simp [count], no_pipe'.trans no_pipe, by rw [forks, forked]; rfl⟩
      · intro e he
        obtain ⟨stage', cause, failed⟩ := failed e he
        exact ⟨stage', cause, by rw [forks]; exact List.mem_cons_of_mem _ failed⟩

/-! ## Launches -/

/-- To ask for something is to make the journal longer. -/
theorem grown_frame (S : System σ) : LaunchFrame S.journaled fun s s' => ∃ calls, s'.world.2 = s.world.2 ++ calls where
  refl _ := ⟨[], (List.append_nil _).symm⟩
  trans := by
    rintro s s' s'' ⟨calls, entered⟩ ⟨calls', entered'⟩
    exact ⟨calls ++ calls', by rw [entered', entered, List.append_assoc]⟩
  environment _ _ := ⟨[], (List.append_nil _).symm⟩
  asked h := by
    cases h with
    | makePipe => exact ⟨[.makePipe _], rfl⟩
    | closeDescriptor d => exact ⟨[.close d], rfl⟩
    | _ => exact ⟨[], (List.append_nil _).symm⟩
  forked _ plan := ⟨[.fork plan _], rfl⟩
  placed _ pid pgid := ⟨[.place pid pgid], rfl⟩

variable {shell : String} {p : Pipeline} {r : Except ExecError Launched} {qs : List Pipe}

/-- A launch for which a pipe cannot be made closes those that there are and comes to this error. -/
theorem launch_unpiped {e : Errno} (hr : launch S.journaled shell p s = (r, s')) (usable : ∀ t ∈ p.stages, t.IsUsable)
    (hq : qs.length + 1 < p.stages.length)
    (failed : S.pipeAnswers (qs.length + 1) s.world.1 = qs.map Pipe.answer ++ [.error e]) :
    r = .error (.pipe e) ∧
      s'.world.2 = s.world.2 ++ (qs.map Pipe.call ++ .makePipe (.error e) :: (qs.flatMap Pipe.ends).map .close) := by
  obtain ⟨s₁, refused, entered⟩ := openPipesFrom_failed [] (p.stages.length - 1) (by omega) failed
  have usable := unusable?_eq_none.2 usable
  have refused : openPipes S.journaled (p.stages.length - 1) s = (.error e, s₁) := refused
  cases launch_course hr with
  | empty none => simp [none] at hq
  | unusable some found => simp [usable] at found
  | unpiped some _ opened =>
    rw [refused] at opened
    cases opened
    exact ⟨rfl, entered⟩
  | unforked some _ opened | launched some _ opened =>
    rw [refused] at opened
    cases opened

/-- A launch for which all pipes can be made asks for children then, and no more pipes. If none of them fails, they are its result. -/
theorem launch_piped (hr : launch S.journaled shell p s = (r, s')) (usable : ∀ t ∈ p.stages, t.IsUsable)
    (hq : qs.length + 1 = p.stages.length) (made : S.pipeAnswers qs.length s.world.1 = qs.map Pipe.answer) :
    ∃ later, s'.world.2 = s.world.2 ++ (qs.map Pipe.call ++ later) ∧ ((∀ f ∈ forksIn later, ∃ pid, f.2 = .ok pid) →
      ∃ leader rest, r = .ok ⟨leader, leader :: rest⟩ ∧ pipesIn later = [] ∧
        forksIn later = p.stages.zip ((leader :: rest).map .ok) ∧ (leader :: rest).length = p.stages.length) := by
  obtain ⟨s₁, opened, entered⟩ := openPipesFrom_made [] made
  have usable := unusable?_eq_none.2 usable
  have opened : openPipes S.journaled (p.stages.length - 1) s = (.ok (.keeping qs 0), s₁) := by
    rw [← hq]
    exact opened
  cases launch_course hr with
  | empty none => simp [none] at hq
  | unusable some found => simp [usable] at found
  | unpiped some _ refused =>
    rw [opened] at refused
    cases refused
  | unforked some _ opened' foreground claimsTerminal forked =>
    rw [opened] at opened'
    cases opened'
    obtain ⟨later, entered', -, failed⟩ := forkStages_journaled [] forked
    refine ⟨later, by rw [entered', entered, List.append_assoc], fun answered => ?_⟩
    obtain ⟨stage, cause, failed⟩ := failed _ rfl
    obtain ⟨pid, answered⟩ := answered _ failed
    cases answered
  | @launched _ leader rest _ _ some _ opened' foreground claimsTerminal forked =>
    rw [opened] at opened'
    cases opened'
    obtain ⟨later, entered', complete, -⟩ := forkStages_journaled [] forked
    refine ⟨later, by rw [entered', entered, List.append_assoc], fun _ => ⟨leader, rest, rfl, ?_⟩⟩
    obtain ⟨pids, rfl, count, no_pipe, forks⟩ := complete _ rfl
    exact ⟨no_pipe, forks, count⟩

/-- A launch that comes to a result asked for a child for each stage, in order, and the result is what it was answered. -/
theorem launch_forks {l : Launched} (hr : launch S.journaled shell p s = (.ok l, s')) :
    forksIn s'.world.2 = forksIn s.world.2 ++ p.stages.zip (l.pids.map .ok) ∧ l.pids.length = p.stages.length ∧
      l.pids.head? = some l.pgid := by
  cases launch_course hr with
  | launched some usable opened foreground claimsTerminal forked =>
    obtain ⟨piped, entered, no_fork⟩ : Childless s _ := by
      have within := (childless_frame S).openPipesFrom {} (p.stages.length - 1) s
      rwa [← openPipes, opened] at within
    obtain ⟨later, entered', complete, -⟩ := forkStages_journaled [] forked
    obtain ⟨pids, rfl, count, -, forks⟩ := complete _ rfl
    refine ⟨?_, count, rfl⟩
    rw [entered', entered, forksIn_append, forksIn_append, no_fork, List.append_nil, forks]

end JournalAux

open JournalAux

/-- A launch is all or nothing. Without stages, or where one of them has an argument with NUL, it asks for nothing; the error then names
the first such stage. Where a pipe cannot be made, it has asked for the pipes up to this one and for no child, and it closes both ends
of each pipe that it has, in order. Where all pipes can be made, it makes just one less than there are stages, and after them a child
for each stage, in order. Unless a child itself fails, they are its result, and their group is the first one. -/
theorem launch_all_or_nothing (S : System σ) (shell : String) (p : Pipeline) (s : Session (σ × List LaunchCall)) :
    let r := (launch S.journaled shell p s).1
    ∃ calls, (launch S.journaled shell p s).2.world.2 = s.world.2 ++ calls ∧
      (p.stages = [] → r = .error .empty ∧ calls = []) ∧
      (∀ before stage after, p.stages = before ++ stage :: after → (∀ t ∈ before, t.IsUsable) → ¬stage.IsUsable →
        r = .error (.invalidArgument stage.program) ∧ calls = []) ∧
      ((∀ t ∈ p.stages, t.IsUsable) → ∀ (qs : List Pipe) (e : Errno), qs.length + 1 < p.stages.length →
        S.pipeAnswers (qs.length + 1) s.world.1 = qs.map Pipe.answer ++ [.error e] →
        r = .error (.pipe e) ∧
          calls = qs.map Pipe.call ++ .makePipe (.error e) :: (qs.flatMap Pipe.ends).map .close ∧ forksIn calls = []) ∧
      ((∀ t ∈ p.stages, t.IsUsable) → ∀ qs : List Pipe, qs.length + 1 = p.stages.length →
        S.pipeAnswers qs.length s.world.1 = qs.map Pipe.answer → (∀ f ∈ forksIn calls, ∃ pid, f.2 = .ok pid) →
        ∃ leader rest later, r = .ok ⟨leader, leader :: rest⟩ ∧ calls = qs.map Pipe.call ++ later ∧ pipesIn later = [] ∧
          forksIn later = p.stages.zip ((leader :: rest).map .ok) ∧ (leader :: rest).length = p.stages.length) := by
  generalize hr : launch S.journaled shell p s = launched
  obtain ⟨r, s'⟩ := launched
  dsimp only
  obtain ⟨calls, entered⟩ : ∃ calls, s'.world.2 = s.world.2 ++ calls := by
    have grown := (grown_frame S).launch shell p s
    rwa [hr] at grown
  -- What was entered last is known, and so are the calls.
  have called : ∀ later, s'.world.2 = s.world.2 ++ later → calls = later := by
    intro later h
    rw [entered] at h
    exact List.append_cancel_left h
  have unasked : s' = s → calls = [] := by
    rintro rfl
    exact called [] (List.append_nil _).symm
  refine ⟨calls, entered, ?_, ?_, ?_, ?_⟩
  · intro none
    cases launch_course hr with
    | empty => exact ⟨rfl, unasked rfl⟩
    | unusable some | unpiped some | unforked some | launched some => exact absurd none some
  · intro before stage after hp usable unusable
    have found := unusable?_eq_some hp usable unusable
    cases launch_course hr with
    | empty none => simp [none] at hp
    | unusable some found' =>
      rw [found] at found'
      cases found'
      exact ⟨rfl, unasked rfl⟩
    | unpiped some none | unforked some none | launched some none =>
      rw [found] at none
      cases none
  · intro usable qs e hq failed
    obtain ⟨refused, entered⟩ := launch_unpiped hr usable hq failed
    obtain rfl := called _ entered
    have none_forked : forksIn (qs.map Pipe.call) = [] := by simp [forksIn, Pipe.call, LaunchCall.fork?]
    refine ⟨refused, rfl, ?_⟩
    rw [forksIn_append, none_forked, List.nil_append]
    exact forksIn_close _
  · intro usable qs hq made answered
    obtain ⟨later, entered, complete⟩ := launch_piped hr usable hq made
    obtain rfl := called _ entered
    rw [forksIn_append] at answered
    obtain ⟨leader, rest, launched, forked⟩ := complete fun f hf => answered f (List.mem_append_right _ hf)
    exact ⟨leader, rest, later, launched, rfl, forked⟩

/-- The counting system, where the descriptors from this one on are not to be had. -/
def System.scarce (limit : Descriptor) : System (Unit × Nat) :=
  { System.counting with makePipe := fun w => if w.2 < limit then System.counting.makePipe w else (.error .tooManyFiles, w) }

/-- The second of two pipes cannot be made: the first is closed again. With one pipe only, both children are made. -/
theorem launch_scarce :
    let s : Session ((Unit × Nat) × List LaunchCall) := { world := (((), 3), []) }
    let three : Pipeline := { stages := [⟨"ls", []⟩, ⟨"sort", ["-r"]⟩, ⟨"wc", []⟩] }
    let two : Pipeline := { stages := [⟨"ls", []⟩, ⟨"wc", []⟩] }
    (launch (System.scarce 5).journaled "chirsh" three s).1 = .error (.pipe .tooManyFiles) ∧
    (launch (System.scarce 5).journaled "chirsh" three s).2.world.2 =
      [.makePipe (.ok (3, 4)), .makePipe (.error .tooManyFiles), .close 3, .close 4] ∧
    ∃ l, (launch (System.scarce 5).journaled "chirsh" two s).1 = .ok l ∧ l.pids.length = 2 := by
  intro s three two
  have usable : ∀ {p : Pipeline}, p.unusable? = none → ∀ t ∈ p.stages, t.IsUsable := unusable?_eq_none.1
  have refused := launch_all_or_nothing (System.scarce 5) "chirsh" three s
  have launched := launch_all_or_nothing (System.scarce 5) "chirsh" two s
  have forks : forksIn (launch (System.scarce 5).journaled "chirsh" two s).2.world.2 =
      [(⟨"ls", []⟩, .ok 5), (⟨"wc", []⟩, .ok 6)] := by decide +kernel
  generalize launch (System.scarce 5).journaled "chirsh" three s = of_three at refused ⊢
  generalize launch (System.scarce 5).journaled "chirsh" two s = of_two at launched forks ⊢
  obtain ⟨calls, entered, -, -, unpiped, -⟩ := refused
  obtain ⟨refused, rfl, -⟩ := unpiped (usable (by decide +kernel)) [⟨3, 4⟩] .tooManyFiles (by decide) rfl
  obtain ⟨calls, entered', -, -, -, piped⟩ := launched
  have answered : ∀ f ∈ forksIn calls, ∃ pid, f.2 = .ok pid := by
    rw [entered', forksIn_append] at forks
    simp [s, forksIn] at forks
    simp [forksIn, forks]
  obtain ⟨leader, rest, later, launched, -, -, -, count⟩ := piped (usable (by decide +kernel)) [⟨3, 4⟩] (by decide) rfl answered
  exact ⟨refused, entered, _, launched, count⟩

end JobShell
