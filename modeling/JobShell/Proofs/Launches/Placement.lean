import JobShell.Proofs.Launches.Wiring

/-!
# The group of a pipeline

Every child of a pipeline is put into the group of the first one twice, by itself with its first step and by the shell right after it was
made, and neither knows of the other. Both ignore it if this fails: the shell cannot move a child that has become its program, nor
find one that has ended, and a child that joins another's group cannot if there is no such group.

A system is looked at with its children around it (`System.mustered`). Before every request of a launch any of them may take steps or
end, as a schedule has it; the end of a child is collected only after the launch, so that until then its group remains.
`grouped_of_launch` says that no child becomes its program in another group than the first one's, and that all of them are in it when the
launch is over.

Of each child it is followed whether it has its first step before it (`Recruit.Follows`). Until then it neither runs its program nor
ends, and the shell can place it; from then on it is in the group. What makes the first step succeed is that the group is there, which
the child at the head of the pipeline makes it, or the shell for it (`Muster.Led`).
-/

namespace JobShell

open Act WiringAux

variable {σ : Type}

/-! ## Children on their way -/

/-- A child on its way: its group, the steps it has still to take, the group in which it became its program, and whether it has ended. -/
structure Recruit where
  pid : Pid
  group : Pid
  steps : List ChildStep
  ranIn : Option Pid := none
  gone : Bool := false
  deriving DecidableEq, Repr

namespace Recruit

/-- The child has its first step behind it, with which it sets its group. -/
def begun (c : Recruit) : Bool :=
  match c.steps with
  | .joinGroup _ :: _ => false
  | _ => true

/-- The child is put into a group, if that is its own or there is such a group. -/
def join (exist : Pid → Bool) (target : Pid) (c : Recruit) : Recruit :=
  if target = c.pid ∨ exist target = true then { c with group := target } else c

/-- The child after its next step. -/
def next (exist : Pid → Bool) (c : Recruit) : Recruit :=
  match c.steps with
  | [] => c
  | .joinGroup group :: rest => { c.join exist (group.getD c.pid) with steps := rest }
  | .execute .. :: rest => { c with steps := rest, ranIn := some c.group }
  | _ :: rest => { c with steps := rest }

end Recruit

/-- What may happen to a child: it takes its next step, it ends, or its end is collected. -/
inductive ChildTurn where
  | step (pid : Pid)
  | leave (pid : Pid)
  | collect (pid : Pid)
  deriving DecidableEq, Repr

/-- It is the end of a child that is collected. -/
def ChildTurn.isCollect : ChildTurn → Bool
  | .collect _ => true
  | _ => false

/-- The group of the shell, whether the system still finds a child that has ended, the children that are not collected, and what happens
to them before each request to come. -/
structure Muster where
  own : Pid
  findsGone : Bool := false
  recruits : List Recruit := []
  schedule : List (List ChildTurn) := []
  deriving DecidableEq, Repr

namespace Muster

/-- There is such a group. A child that has ended is in its group until it is collected. -/
def hasGroup (m : Muster) (g : Pid) : Bool := g == m.own || m.recruits.any (·.group == g)

/-- The child with this number changes. -/
def update (m : Muster) (pid : Pid) (change : Recruit → Recruit) : Muster :=
  { m with recruits := m.recruits.map fun c => if c.pid = pid then change c else c }

/-- Something happens to a child. It does not end before its first step. -/
def turn (m : Muster) : ChildTurn → Muster
  | .step pid => m.update pid fun c => if c.gone then c else c.next m.hasGroup
  | .leave pid => m.update pid fun c => { c with gone := c.gone || c.begun }
  | .collect pid => { m with recruits := m.recruits.filter fun c => !(c.pid == pid && c.gone) }

/-- All this happens, one thing after the other. -/
def play (m : Muster) (turns : List ChildTurn) : Muster := turns.foldl turn m

/-- What happens before the next request of the shell. -/
def goOn (m : Muster) : Muster := { m with schedule := m.schedule.tail }.play (m.schedule.headD [])

/-- The shell made a child, which is in the shell's group. -/
def enlist (m : Muster) (pid : Pid) (plan : ChildPlan) : Muster :=
  { m with recruits := m.recruits ++ [{ pid, group := m.own, steps := plan.steps }] }

/-- The shell places a child in a group. It cannot if the child has become its program, nor if it has ended and is not found. -/
def place (m : Muster) (pid pgid : Pid) : Muster :=
  m.update pid fun c => if c.ranIn.isSome ∨ c.gone ∧ ¬m.findsGone then c else c.join m.hasGroup pgid

end Muster

/-- The system with its children around it, to which something may happen before each request of a launch. -/
def System.mustered (S : System σ) : System (σ × Muster) :=
  { S.beside Muster with
    makePipe := noted S.makePipe fun _ m => m.goOn
    closeDescriptor := fun d w => (S.closeDescriptor d w.1, w.2.goOn)
    fork := fun plan => noted (S.fork plan) fun answer m => match answer with
      | .ok pid => m.goOn.enlist pid plan
      | .error _ => m.goOn
    placeInGroup := fun pid pgid w => (S.placeInGroup pid pgid w.1, w.2.goOn.place pid pgid) }

/-! ## One child -/

/-- The child follows its leader: it has the step before it that brings it into the leader's group, and has done nothing else, or it has
that step behind it and is in the group, and if it became its program it was in the group then. -/
inductive Recruit.Follows (leader : Pid) (c : Recruit) : Prop
  | waiting {target : Option Pid} {rest : List ChildStep} (first : c.steps = .joinGroup target :: rest)
    (once : ∀ t, ChildStep.joinGroup t ∉ rest) (follows : target.getD c.pid = leader) (ran : c.ranIn = none) (here : c.gone = false)
  | joined (begun : ∀ t, ChildStep.joinGroup t ∉ c.steps) (group : c.group = leader) (ran : ∀ g, c.ranIn = some g → g = leader)

namespace Recruit

variable {leader : Pid} {c : Recruit} {exist : Pid → Bool}

/-- The child can be put into the leader's group if that is its own or there is such a group. -/
theorem join_leader (open_ : c.pid = leader ∨ exist leader = true) : c.join exist leader = { c with group := leader } := by
  unfold join
  rw [if_pos (open_.imp_left Eq.symm)]

/-- To be put into a group leaves the child its number. -/
theorem pid_join (target : Pid) : (c.join exist target).pid = c.pid := by
  unfold join
  split <;> rfl

/-- A step leaves the child its number. -/
theorem pid_next : (c.next exist).pid = c.pid := by
  unfold next
  split
  · rfl
  · exact pid_join _
  · rfl
  · rfl

/-- With its next step a child that follows goes on to follow. -/
theorem Follows.next (h : c.Follows leader) (open_ : c.pid = leader ∨ exist leader = true) :
    (c.next exist).Follows leader ∧ (c.next exist).pid = c.pid ∧ (c.group = leader → (c.next exist).group = leader) := by
  cases h with
  | @waiting target rest first once follows ran here =>
    have joins : c.next exist = { c with group := leader, steps := rest } := by
      unfold Recruit.next
      rw [first]
      dsimp only
      rw [follows, join_leader open_]
    rw [joins]
    refine ⟨.joined once rfl fun g hg => ?_, rfl, fun _ => rfl⟩
    rw [ran] at hg
    cases hg
  | joined begun group ran =>
    unfold Recruit.next
    cases hs : c.steps with
    | nil => exact ⟨.joined begun group ran, rfl, id⟩
    | cons step rest =>
      have begun : ∀ t, ChildStep.joinGroup t ∉ step :: rest := hs ▸ begun
      have later : ∀ t, ChildStep.joinGroup t ∉ rest := fun t ht => begun t (List.mem_cons_of_mem _ ht)
      cases step with
      | joinGroup t => exact absurd List.mem_cons_self (begun t)
      | execute => exact ⟨.joined later group fun g hg => by rw [← Option.some.inj hg, group], rfl, id⟩
      | claimTerminal | resetSignals | duplicate | close => exact ⟨.joined later group ran, rfl, id⟩

/-- A child that follows can end only after its first step, and so it goes on to follow. -/
theorem Follows.leave (h : c.Follows leader) : ({ c with gone := c.gone || c.begun } : Recruit).Follows leader := by
  cases h with
  | waiting first once follows ran here =>
    have unbegun : c.begun = false := by
      unfold Recruit.begun
      rw [first]
    exact .waiting first once follows ran (by simp [here, unbegun])
  | joined begun group ran => exact .joined begun group ran

/-- A child that follows and is placed is in the leader's group. If it cannot be placed, it has its first step behind it. -/
theorem Follows.place (h : c.Follows leader) (open_ : c.pid = leader ∨ exist leader = true) (findsGone : Bool) :
    let placed := if c.ranIn.isSome ∨ c.gone ∧ ¬findsGone then c else c.join exist leader
    placed.Follows leader ∧ placed.pid = c.pid ∧ placed.group = leader := by
  intro placed
  have moved : c.join exist leader = { c with group := leader } := join_leader open_
  cases h with
  | waiting first once follows ran here =>
    have same : placed = { c with group := leader } := (if_neg (by simp [ran, here])).trans moved
    rw [same]
    exact ⟨.waiting first once follows ran here, rfl, rfl⟩
  | joined begun group ran =>
    have same : placed = c := by
      have back : c.join exist leader = c := by rw [moved, ← group]
      show (if _ then c else c.join exist leader) = c
      rw [back, ite_self]
    rw [same]
    exact ⟨.joined begun group ran, rfl, group⟩

end Recruit

/-! ## All children -/

/-- All children follow the leader and are in its group, but for one that was only just made, and each finds the group when it joins. -/
structure Muster.Led (leader : Pid) (late : Option Pid) (m : Muster) : Prop where
  follows : ∀ c ∈ m.recruits, c.Follows leader
  open_ : ∀ c ∈ m.recruits, c.pid = leader ∨ ∃ d ∈ m.recruits, d.group = leader
  gathered : ∀ c ∈ m.recruits, c.group = leader ∨ late = some c.pid

/-- Before no request to come the end of a child is collected. -/
def Muster.Held (m : Muster) : Prop := ∀ turns ∈ m.schedule, ∀ t ∈ turns, t.isCollect = false

/-- These children were made, the first of them leads the others, and none of them is collected before the launch is over. -/
structure Muster.Arrayed (made : List Pid) (m : Muster) : Prop where
  pids : m.recruits.map Recruit.pid = made
  led : ∀ leader, made.head? = some leader → m.Led leader none
  held : m.Held

namespace Muster

variable {m : Muster} {leader pid : Pid} {late : Option Pid} {made : List Pid} {change : Recruit → Recruit}

/-- Where none is left to be placed, all are in the group. -/
theorem Led.group (h : m.Led leader none) {c : Recruit} (hc : c ∈ m.recruits) : c.group = leader := by
  rcases h.gathered c hc with group | late
  · exact group
  · cases late

/-- A group that is open to a child is there, if it is not its own. -/
theorem Led.hasGroup (h : m.Led leader late) {c : Recruit} (hc : c ∈ m.recruits) : c.pid = leader ∨ m.hasGroup leader = true := by
  refine (h.open_ c hc).imp_right ?_
  rintro ⟨d, hd, group⟩
  simp [Muster.hasGroup, List.any_eq_true]
  exact .inr ⟨d, hd, group⟩

/-- A change of one child that leaves its number leaves the numbers. -/
theorem pids_update (hp : ∀ c ∈ m.recruits, (change c).pid = c.pid) :
    (m.update pid change).recruits.map Recruit.pid = m.recruits.map Recruit.pid := by
  unfold update
  rw [List.map_map]
  refine List.map_congr_left fun c hc => ?_
  show (if c.pid = pid then change c else c).pid = c.pid
  split
  · exact hp c hc
  · rfl

/-- A change of one child that leaves it a follower, and in the group if it was there, leaves all led. -/
theorem Led.update (h : m.Led leader late)
    (hc : ∀ c ∈ m.recruits, (change c).Follows leader ∧ (change c).pid = c.pid ∧ (c.group = leader → (change c).group = leader)) :
    (m.update pid change).Led leader late := by
  have each : ∀ c ∈ m.recruits, ∃ d ∈ (m.update pid change).recruits,
      d.Follows leader ∧ d.pid = c.pid ∧ (c.group = leader → d.group = leader) := by
    intro c hm
    refine ⟨_, List.mem_map_of_mem hm, ?_⟩
    split
    · exact hc c hm
    · exact ⟨h.follows c hm, rfl, id⟩
  have back : ∀ d ∈ (m.update pid change).recruits, ∃ c ∈ m.recruits,
      d.Follows leader ∧ d.pid = c.pid ∧ (c.group = leader → d.group = leader) := by
    intro d hd
    obtain ⟨c, hm, rfl⟩ := List.mem_map.1 hd
    refine ⟨c, hm, ?_⟩
    split
    · exact hc c hm
    · exact ⟨h.follows c hm, rfl, id⟩
  refine ⟨fun d hd => ?_, fun d hd => ?_, fun d hd => ?_⟩
  · obtain ⟨-, -, follows, -⟩ := back d hd
    exact follows
  · obtain ⟨c, hm, -, same, -⟩ := back d hd
    rw [same]
    refine (h.open_ c hm).imp_right ?_
    rintro ⟨e, he, group⟩
    obtain ⟨e', he', -, -, stays⟩ := each e he
    exact ⟨e', he', stays group⟩
  · obtain ⟨c, hm, -, same, stays⟩ := back d hd
    rw [same]
    exact (h.gathered c hm).imp_left stays

/-- Whatever happens to a child, all stay led. The end of a child may be collected once all are in the group. -/
theorem Led.turn (h : m.Led leader late) {t : ChildTurn} (ht : t.isCollect = false ∨ late = none) : (m.turn t).Led leader late := by
  cases t with
  | step pid =>
    refine h.update fun c hc => ?_
    split
    · exact ⟨h.follows c hc, rfl, id⟩
    · exact (h.follows c hc).next (h.hasGroup hc)
  | leave pid => exact h.update fun c hc => ⟨(h.follows c hc).leave, rfl, id⟩
  | collect pid =>
    obtain rfl : late = none := by simpa [ChildTurn.isCollect] using ht
    have left : ∀ c ∈ (m.turn (.collect pid)).recruits, c ∈ m.recruits := fun c hc => List.mem_of_mem_filter hc
    have gathered : ∀ c ∈ (m.turn (.collect pid)).recruits, c.group = leader := fun c hc => h.group (left c hc)
    exact ⟨fun c hc => h.follows c (left c hc), fun c hc => .inr ⟨c, hc, gathered c hc⟩, fun c hc => .inl (gathered c hc)⟩

/-- Whatever happens to the children, they stay led. -/
theorem Led.play (h : m.Led leader late) {turns : List ChildTurn} (ht : (∀ t ∈ turns, t.isCollect = false) ∨ late = none) :
    (m.play turns).Led leader late := by
  induction turns generalizing m with
  | nil => exact h
  | cons t rest ih =>
    refine ih (h.turn (ht.imp_left fun held => held t List.mem_cons_self)) ?_
    exact ht.imp_left fun held u hu => held u (List.mem_cons_of_mem _ hu)

/-- As long as no end is collected, the children stay the same. -/
theorem pids_play {turns : List ChildTurn} (ht : ∀ t ∈ turns, t.isCollect = false) :
    (m.play turns).recruits.map Recruit.pid = m.recruits.map Recruit.pid := by
  induction turns generalizing m with
  | nil => rfl
  | cons t rest ih =>
    have later := ih (m := m.turn t) fun u hu => ht u (List.mem_cons_of_mem _ hu)
    refine later.trans ?_
    cases t with
    | step pid =>
      refine pids_update fun c _ => ?_
      split
      · rfl
      · exact Recruit.pid_next
    | leave pid => exact pids_update fun _ _ => rfl
    | collect pid => simp [ChildTurn.isCollect] at ht

/-- What happens later is left to it. -/
theorem schedule_play (m : Muster) (turns : List ChildTurn) : (m.play turns).schedule = m.schedule := by
  induction turns generalizing m with
  | nil => rfl
  | cons t rest ih =>
    refine (ih (m.turn t)).trans ?_
    cases t <;> rfl

/-- Where nothing is collected, nothing is before the next request. -/
theorem Held.headD (h : m.Held) : ∀ t ∈ m.schedule.headD [], t.isCollect = false := by
  unfold Held at h
  cases hs : m.schedule with
  | nil => nofun
  | cons turns rest => exact h turns (hs ▸ List.mem_cons_self)

/-- Where nothing is collected, nothing is after the next request. -/
theorem Held.goOn (h : m.Held) : m.goOn.Held := by
  unfold Held Muster.goOn
  rw [schedule_play]
  exact fun turns ht => h turns (List.mem_of_mem_tail ht)

/-- The children stay the same until the next request. -/
theorem pids_goOn (h : m.Held) : m.goOn.recruits.map Recruit.pid = m.recruits.map Recruit.pid := pids_play h.headD

/-- The children stay led until the next request. -/
theorem Led.goOn (h : m.Led leader late) (held : m.Held) : m.goOn.Led leader late := by
  have led : Led leader late { m with schedule := m.schedule.tail } := ⟨h.follows, h.open_, h.gathered⟩
  exact led.play (.inl held.headD)

/-- The children stay arrayed until the next request. -/
theorem Arrayed.goOn (h : m.Arrayed made) : m.goOn.Arrayed made :=
  ⟨(pids_goOn h.held).trans h.pids, fun leader hl => (h.led leader hl).goOn h.held, h.held.goOn⟩

/-- A child more follows the leader. If there was none, it is the leader. -/
theorem Arrayed.enlist (h : m.Arrayed made) (child : Pid) (plan : ChildPlan) (hp : plan.group = made.head?) :
    (m.enlist child plan).Led (made.head?.getD child) (some child) := by
  have new : Recruit.Follows (made.head?.getD child) { pid := child, group := m.own, steps := plan.steps } := by
    have once : ∀ t, ChildStep.joinGroup t ∉ plan.steps.tail := by
      intro t
      simp [ChildPlan.steps]
    exact .waiting rfl once (by rw [hp]) rfl rfl
  have recruits : (m.enlist child plan).recruits = m.recruits ++ [{ pid := child, group := m.own, steps := plan.steps }] := rfl
  cases made with
  | nil =>
    have none_before : m.recruits = [] := List.map_eq_nil_iff.1 h.pids
    rw [none_before, List.nil_append] at recruits
    refine ⟨?_, ?_, ?_⟩ <;> rw [recruits] <;> intro c hc <;> obtain rfl := List.mem_singleton.1 hc
    · exact new
    · exact .inl rfl
    · exact .inr rfl
  | cons leader rest =>
    have led := h.led leader rfl
    obtain ⟨first, hf⟩ : ∃ c, c ∈ m.recruits := List.exists_mem_of_ne_nil _ fun none => by
      have pids := h.pids
      rw [none] at pids
      cases pids
    have group : first.group = leader := led.group hf
    refine ⟨?_, ?_, ?_⟩ <;> rw [recruits] <;> intro c hc
    · rcases List.mem_append.1 hc with hc | hc
      · exact led.follows c hc
      · obtain rfl := List.mem_singleton.1 hc
        exact new
    · exact .inr ⟨first, List.mem_append_left _ hf, group⟩
    · rcases List.mem_append.1 hc with hc | hc
      · exact .inl (led.group hc)
      · obtain rfl := List.mem_singleton.1 hc
        exact .inr rfl

/-- Once the child that was just made is placed, all are in the group. -/
theorem Led.place (h : m.Led leader (some pid)) : (m.place pid leader).Led leader none := by
  have placed : ∀ c ∈ m.recruits, _ := fun c hc => (h.follows c hc).place (h.hasGroup hc) m.findsGone
  have led : (m.place pid leader).Led leader (some pid) := h.update fun c hc => by
    obtain ⟨follows, same, group⟩ := placed c hc
    exact ⟨follows, same, fun _ => group⟩
  refine ⟨led.follows, led.open_, fun d hd => .inl ?_⟩
  obtain ⟨c, hc, rfl⟩ := List.mem_map.1 hd
  split
  · exact (placed c hc).2.2
  · rename_i other
    exact (h.gathered c hc).resolve_right fun same => other (Option.some.inj same).symm

/-- To place a child leaves the numbers. -/
theorem pids_place (m : Muster) (pid pgid : Pid) : (m.place pid pgid).recruits.map Recruit.pid = m.recruits.map Recruit.pid := by
  refine pids_update fun c _ => ?_
  split
  · rfl
  · exact Recruit.pid_join pgid

/-- Where there are no children, nothing happens to any. -/
theorem play_of_nil (turns : List ChildTurn) (h : m.recruits = []) : (m.play turns).recruits = [] := by
  induction turns generalizing m with
  | nil => exact h
  | cons t rest ih =>
    refine ih ?_
    cases t <;> simp [Muster.turn, Muster.update, h]

/-- A child that is made and placed is arrayed with those before it, whatever happens between the two. -/
theorem Arrayed.admit (h : m.Arrayed made) (child : Pid) (plan : ChildPlan) (hp : plan.group = made.head?) :
    ((m.enlist child plan).goOn.place child (made.head?.getD child)).Arrayed (made ++ [child]) := by
  have held : (m.enlist child plan).Held := h.held
  have led := ((h.enlist child plan hp).goOn held).place
  have first : (made ++ [child]).head? = some (made.head?.getD child) := by cases made <;> rfl
  refine ⟨?_, fun leader hl => ?_, held.goOn⟩
  · rw [pids_place, pids_goOn held]
    show (m.recruits ++ [_]).map Recruit.pid = _
    rw [List.map_append, h.pids]
    rfl
  · rw [first] at hl
    rw [← Option.some.inj hl]
    exact led

end Muster

/-! ## The launch -/

namespace PlacementAux

variable {S : System σ} {s s' : Session (σ × Muster)} {made : List Pid}

/-- What else a launch asks for leaves the children arrayed. -/
theorem arrayed_frame (S : System σ) :
    Frame S.mustered fun s s' => ∀ made, s.world.2.Arrayed made → s'.world.2.Arrayed made where
  refl _ _ := id
  trans h h' made arrayed := h' made (h made arrayed)
  environment _ _ _ := id
  asked h made := by
    cases h with
    | makePipe | closeDescriptor => exact Muster.Arrayed.goOn
    | _ => exact id

/-- A child that is made and placed is arrayed with those before it. -/
theorem forkNext_arrayed (plan : ChildPlan) (pipes : PipeSet) (h : s.world.2.Arrayed made) (hp : plan.group = made.head?) :
    match forkNext S.mustered plan pipes made s with
    | (.error _, s') => s'.world.2.Arrayed made
    | (.ok (child, _), s') => s'.world.2.Arrayed (made ++ [child]) := by
  have asked : ask (S.mustered.fork plan) s = ((S.fork plan s.world.1).1, { s with world := (S.mustered.fork plan s.world).2 }) := rfl
  rw [forkNext, bind_apply, asked]
  cases hf : (S.fork plan s.world.1).1 with
  | error cause =>
    have same : (S.mustered.fork plan s.world).2.2 = s.world.2.goOn := by simp only [System.mustered, System.noted, hf]
    show (S.mustered.fork plan s.world).2.2.Arrayed made
    rw [same]
    exact h.goOn
  | ok child =>
    have enlisted : (S.mustered.fork plan s.world).2.2 = s.world.2.goOn.enlist child plan := by
      simp only [System.mustered, System.noted, hf]
    dsimp only
    rw [bind_apply]
    generalize hs : (tell (S.mustered.placeInGroup child (made.head?.getD child))
      { s with world := (S.mustered.fork plan s.world).2 }).2 = s₁
    have placed : s₁.world.2 = (s.world.2.goOn.enlist child plan).goOn.place child (made.head?.getD child) := by
      rw [← hs, ← enlisted]
      rfl
    have arrayed : s₁.world.2.Arrayed (made ++ [child]) := by
      rw [placed]
      exact h.goOn.admit child plan hp
    cases made.length with
    | zero => exact arrayed
    | succ i => exact (arrayed_frame S).closeAll _ s₁ _ arrayed

/-- The children of all stages are arrayed, and if one cannot be made, those before it are. -/
theorem forkStages_arrayed {shell : String} {foreground claimsTerminal : Bool} {stages : List Stage} {pipes : PipeSet} (made : List Pid)
    {r : Except ExecError (List Pid)} (h : s.world.2.Arrayed made)
    (hr : forkStages S.mustered shell foreground claimsTerminal stages made.length pipes made s = (r, s')) :
    ∃ all, s'.world.2.Arrayed all ∧ ∀ pids, r = .ok pids → pids = all := by
  have frame := arrayed_frame S
  induction stages generalizing pipes made s with
  | nil =>
    cases hr
    exact ⟨made, frame.closeAll _ s made h, fun pids hp => (Except.ok.inj hp).symm⟩
  | cons stage rest ih =>
    rw [forkStages_cons] at hr
    have one := forkNext_arrayed (S := S) (plan shell foreground claimsTerminal s.environment stage pipes made) pipes h rfl
    generalize forkNext S.mustered _ pipes made s = next at hr one
    obtain ⟨cause | ⟨child, left⟩, s₁⟩ := next
    · cases hr
      exact ⟨made, frame.trans (frame.abandon made s₁) (frame.closeAll _ _) made one, by rintro pids ⟨⟩⟩
    · have length : (made ++ [child]).length = made.length + 1 := List.length_append
      rw [← length] at hr
      exact ih _ one hr

/-- After a launch the children are arrayed, and if it gives children, these are they. -/
theorem launch_arrayed {shell : String} {p : Pipeline} {r : Except ExecError Launched} (fresh : s.world.2.recruits = [])
    (held : s.world.2.Held) (hr : launch S.mustered shell p s = (r, s')) :
    ∃ all, s'.world.2.Arrayed all ∧ ∀ l, r = .ok l → l.pids = all ∧ l.pids.head? = some l.pgid ∧ l.pids.length = p.stages.length := by
  have start : s.world.2.Arrayed [] := ⟨by rw [fresh]; rfl, by rintro leader ⟨⟩, held⟩
  have piped {result : Except Errno PipeSet} {s₁ : Session (σ × Muster)}
      (opened : openPipes S.mustered (p.stages.length - 1) s = (result, s₁)) : s₁.world.2.Arrayed [] := by
    have kept := (arrayed_frame S).openPipesFrom {} (p.stages.length - 1) s [] start
    rwa [← openPipes, opened] at kept
  cases launch_course hr with
  | empty | unusable => exact ⟨[], start, by rintro l ⟨⟩⟩
  | unpiped some usable opened => exact ⟨[], piped opened, by rintro l ⟨⟩⟩
  | unforked some usable opened foreground claimsTerminal forked =>
    obtain ⟨all, arrayed, -⟩ := forkStages_arrayed [] (piped opened) forked
    exact ⟨all, arrayed, by rintro l ⟨⟩⟩
  | launched some usable opened foreground claimsTerminal forked =>
    obtain ⟨all, arrayed, complete⟩ := forkStages_arrayed [] (piped opened) forked
    obtain ⟨pids, rfl, count⟩ := forkStages_ok [] forked
    refine ⟨all, arrayed, fun l hl => ?_⟩
    cases hl
    exact ⟨complete _ rfl, rfl, count⟩

end PlacementAux

open PlacementAux

/-- Whatever the system answers, and whatever happens to the children before each request of a launch and after it: none becomes its
program in another group than the first one's, also if the launch fails, and when the launch is over all children that it made are in
that group, those that have ended as well. It is only asked that the launch begins without children and that the end of none is
collected while it goes on. -/
theorem grouped_of_launch (S : System σ) (shell : String) (p : Pipeline) {s : Session (σ × Muster)} (fresh : s.world.2.recruits = [])
    (held : ∀ turns ∈ s.world.2.schedule, ∀ t ∈ turns, t.isCollect = false) :
    let m := (launch S.mustered shell p s).2.world.2
    (∀ turns, ∀ c ∈ (m.play turns).recruits, ∀ g, c.ranIn = some g → (m.recruits.map Recruit.pid).head? = some g) ∧
    ∀ l, (launch S.mustered shell p s).1 = .ok l → m.recruits.map Recruit.pid = l.pids ∧ l.pids.length = p.stages.length ∧
      l.pids.head? = some l.pgid ∧ ∀ turns, ∀ c ∈ (m.play turns).recruits, c.group = l.pgid := by
  intro m
  obtain ⟨all, arrayed, complete⟩ := launch_arrayed (S := S) fresh held rfl
  have pids : m.recruits.map Recruit.pid = all := arrayed.pids
  have played : ∀ leader, all.head? = some leader → ∀ turns, (m.play turns).Led leader none := fun leader hl turns =>
    (arrayed.led leader hl).play (.inr rfl)
  refine ⟨fun turns c hc g hg => ?_, fun l hl => ?_⟩
  · rw [pids]
    cases hl : all.head? with
    | none =>
      have no_child : m.recruits = [] := by
        rw [List.head?_eq_none_iff] at hl
        rwa [hl, List.map_eq_nil_iff] at pids
      rw [Muster.play_of_nil turns no_child] at hc
      cases hc
    | some leader =>
      have led := played leader hl turns
      cases led.follows c hc with
      | waiting first once follows ran here =>
        rw [ran] at hg
        cases hg
      | joined begun group ran => rw [ran g hg]
  · obtain ⟨rfl, leader, count⟩ := complete l hl
    refine ⟨pids, count, leader, fun turns c hc => ?_⟩
    exact (played l.pgid leader turns).group hc

/-- The first of three children runs its program and ends before the shell places it, so that the shell cannot; the second joins by itself,
and the third takes no step before the launch is over. -/
theorem grouped_of_launch_counting :
    let p : Pipeline := { stages := [⟨"ls", []⟩, ⟨"sort", ["-r"]⟩, ⟨"wc", []⟩] }
    let schedule : List (List ChildTurn) := [[], [], [], List.replicate 8 (.step 7) ++ [.leave 7], [], [.step 8]]
    let s : Session ((Unit × Nat) × Muster) := { world := (((), 3), { own := 2, schedule }) }
    let m := (launch System.counting.mustered "chirsh" p s).2.world.2
    m.recruits.map (fun c => (c.pid, c.ranIn, c.gone)) = [(7, some 7, true), (8, none, false), (9, none, false)] ∧
      ∀ c ∈ m.recruits, c.group = 7 := by
  intro p schedule s
  have ran : (launch System.counting.mustered "chirsh" p s).2.world.2.recruits.map (fun c => (c.pid, c.ranIn, c.gone)) =
      [(7, some 7, true), (8, none, false), (9, none, false)] := by decide +kernel
  have made : (launch System.counting.mustered "chirsh" p s).1 = .ok ⟨7, [7, 8, 9]⟩ := by decide +kernel
  have grouped := grouped_of_launch System.counting "chirsh" p (s := s) rfl (by decide)
  generalize launch System.counting.mustered "chirsh" p s = launched at ran made grouped ⊢
  obtain ⟨-, complete⟩ := grouped
  obtain ⟨-, -, -, grouped⟩ := complete _ made
  exact ⟨ran, grouped []⟩

end JobShell
