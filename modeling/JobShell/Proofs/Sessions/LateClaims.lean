import JobShell.Proofs.Sessions.Operations

/-!
# Children that claim the terminal late

The shell hands the terminal to a pipeline in the foreground and takes it back when its wait is over. Each child of the pipeline claims
the terminal for its group as well, on its way to its program, at a time of its own. A wait is over as soon as one member stops, and by
then others may still have their claim before them.

To see what comes of that, a system is looked at with a scene around it (`System.staged`). The scene holds the children that the shell
made, with the steps that each has still to take, and the group in the foreground of the terminal. Before every request of the shell any
of the children take steps; in which order, and which of them are held up, is left to a schedule. A child takes no more steps when its
end was reported. The terminal itself never fails.

`terminal_of_returned` says what holds for every system and every schedule: the shell has the terminal when it takes it back, and from
then on until one of the claims is made that were left at that moment, all of them for the pipeline's group or for one that was claimed
for before. By `stays_iff` nothing better can be said: the terminal stays with the shell whatever the children do only if no such claim
was left. `taken_after_return` is a run in which one was.
-/

namespace JobShell

open Act

variable {σ : Type}

/-! ## Children on their way -/

/-- A child of the shell on its way to its program: its group, the steps it has still to take, and whether its end was reported. -/
structure Starter where
  pid : Pid
  group : Pid
  steps : List ChildStep
  ended : Bool := false
  deriving DecidableEq, Repr

namespace Starter

/-- The child after its next step. -/
def next (c : Starter) : Starter :=
  match c.steps with
  | [] => c
  | .joinGroup group :: rest => { c with group := group.getD c.pid, steps := rest }
  | _ :: rest => { c with steps := rest }

/-- The group that the child's next step brings to the foreground. -/
def claim? (c : Starter) : Option Pid := if c.steps.head? = some .claimTerminal then some c.group else none

/-- The groups that these steps of a child bring to the foreground, when it begins them in this group. -/
def claimsFrom (pid : Pid) : (group : Pid) → List ChildStep → List Pid
  | _, [] => []
  | _, .joinGroup group :: rest => claimsFrom pid (group.getD pid) rest
  | group, .claimTerminal :: rest => group :: claimsFrom pid group rest
  | group, _ :: rest => claimsFrom pid group rest

/-- The groups that the child is still to bring to the foreground. -/
def claims (c : Starter) : List Pid := if c.ended then [] else claimsFrom c.pid c.group c.steps

/-- The claims of a child are the one of its next step and the ones after it. -/
theorem claims_next (c : Starter) (h : c.ended = false) : c.claims = c.claim?.toList ++ c.next.claims := by
  obtain ⟨pid, group, steps, ended⟩ := c
  subst h
  cases steps with
  | nil => rfl
  | cons step rest => cases step <;> rfl

/-- A child that is in another group has no other claims than for that one. -/
theorem claimsFrom_subset (pid group group' : Pid) (steps : List ChildStep) :
    claimsFrom pid group' steps ⊆ group' :: claimsFrom pid group steps := by
  induction steps with
  | nil => exact List.nil_subset _
  | cons step rest ih =>
    cases step with
    | joinGroup target => exact List.subset_cons_self ..
    | claimTerminal =>
      refine List.cons_subset.2 ⟨List.mem_cons_self, fun g hg => ?_⟩
      rcases List.mem_cons.1 (ih hg) with rfl | hg
      · exact List.mem_cons_self
      · exact List.mem_cons_of_mem _ (List.mem_cons_of_mem _ hg)
    | resetSignals | duplicate | close | execute => exact ih

/-- Steps that lead into no other group claim the terminal for this one. -/
theorem claimsFrom_of_placed (pid group : Pid) (steps : List ChildStep) (h : ∀ target, ChildStep.joinGroup target ∉ steps) :
    claimsFrom pid group steps ⊆ [group] := by
  induction steps with
  | nil => exact List.nil_subset _
  | cons step rest ih =>
    have later := ih fun target hm => h target (List.mem_cons_of_mem _ hm)
    cases step with
    | joinGroup target => exact absurd List.mem_cons_self (h target)
    | claimTerminal => exact List.cons_subset.2 ⟨List.mem_cons_self, later⟩
    | resetSignals | duplicate | close | execute => exact later

/-- A child that was set up by a plan claims the terminal for the group that it joins. -/
theorem claimsFrom_steps (pid group : Pid) (plan : ChildPlan) : claimsFrom pid group plan.steps ⊆ [plan.group.getD pid] := by
  have joins : plan.steps = .joinGroup plan.group :: plan.steps.tail := rfl
  have placed : ∀ target, ChildStep.joinGroup target ∉ plan.steps.tail := by
    intro target
    simp [ChildPlan.steps]
  rw [joins]
  exact claimsFrom_of_placed pid (plan.group.getD pid) _ placed

end Starter

/-! ## The scene around a system -/

/-- The group of the shell, the group in the foreground of the terminal, the children made so far, and which of them take a step
before each request to come. -/
structure Scene where
  own : Pid
  foreground : Pid
  starters : List Starter := []
  schedule : List (List Nat) := []
  deriving DecidableEq, Repr

namespace Scene

/-- The groups that children are still to bring to the foreground. -/
def claims (v : Scene) : List Pid := v.starters.flatMap Starter.claims

/-- One of the children takes its next step. -/
def step (v : Scene) (i : Nat) : Scene :=
  match v.starters[i]? with
  | none => v
  | some c =>
    if c.ended then v else { v with starters := v.starters.set i c.next, foreground := c.claim?.getD v.foreground }

/-- These children take a step, one after the other. -/
def steps (v : Scene) (is : List Nat) : Scene := is.foldl step v

/-- What the children do before the next request of the shell. -/
def turn (v : Scene) : Scene := { v with schedule := v.schedule.tail }.steps (v.schedule.headD [])

/-- The shell made a child. -/
def adopt (v : Scene) (pid : Pid) (plan : ChildPlan) : Scene :=
  { v with starters := v.starters ++ [{ pid, group := v.own, steps := plan.steps }] }

/-- The shell placed a child in a group. -/
def place (v : Scene) (pid pgid : Pid) : Scene :=
  { v with starters := v.starters.map fun c => if c.pid = pid then { c with group := pgid } else c }

/-- A wait was answered, perhaps with the end of a child. -/
def report (v : Scene) : WaitResult → Scene
  | .error _ => v
  | .ok status =>
    if status.exit?.isSome then
      { v with starters := v.starters.map fun c => if some c.pid = status.pid? then { c with ended := true } else c }
    else v

end Scene

namespace System

/-- A request to which the children have their turn first. -/
def afterTurn {α : Type} (request : σ → α × σ) (effect : α → Scene → Scene) (w : σ × Scene) : α × (σ × Scene) :=
  ((request w.1).1, ((request w.1).2, effect (request w.1).1 w.2.turn))

/-- The system with a scene around it, on which the terminal is. -/
def staged (S : System σ) : System (σ × Scene) where
  patience := S.patience
  groupOf pid w := S.groupOf pid w.1
  signalGroup pgid signal := afterTurn (S.signalGroup pgid signal) fun _ v => v
  signalProcess pid signal := afterTurn (S.signalProcess pid signal) fun _ v => v
  await pgid := afterTurn (S.await pgid) fun result v => v.report result
  awaitProcess pid := afterTurn (S.awaitProcess pid) fun result v => v.report result
  poll pgid := afterTurn (S.poll pgid) fun result v => v.report result
  terminalAttached _ := true
  giveTerminal pgid w := (.ok (), (w.1, { w.2.turn with foreground := pgid }))
  reclaimTerminal w := (.ok (), (w.1, { w.2.turn with foreground := w.2.own }))
  makePipe := afterTurn S.makePipe fun _ v => v
  closeDescriptor d w := (S.closeDescriptor d w.1, w.2.turn)
  fork plan := afterTurn (S.fork plan) fun result v => match result with
    | .ok pid => v.adopt pid plan
    | .error _ => v
  placeInGroup pid pgid w := (S.placeInGroup pid pgid w.1, w.2.turn.place pid pgid)
  workingDirectory w := S.workingDirectory w.1
  changeDirectory path := afterTurn (S.changeDirectory path) fun _ v => v
  write stream text w := (S.write stream text w.1, w.2.turn)
  promptsForLines w := S.promptsForLines w.1
  readLine := afterTurn S.readLine fun _ v => v
  now w := S.now w.1
  wakeAt time w := (S.wakeAt time w.1, w.2.turn)
  beginInteractive := afterTurn S.beginInteractive fun _ v => v
  hostName w := S.hostName w.1
  accountName w := S.accountName w.1
  accountHome w := S.accountHome w.1
  readText path w := S.readText path w.1
  saveText directory file text w := (S.saveText directory file text w.1, w.2.turn)

end System

/-! ## What the children can do to the terminal -/

/-- What children do on their own: no claim is new, and if another group came to the foreground, it was claimed for. -/
structure Scene.Proceeds (v v' : Scene) : Prop where
  own : v'.own = v.own
  claims : v'.claims ⊆ v.claims
  foreground : v'.foreground = v.foreground ∨ v'.foreground ∈ v.claims

/-- No claim is new but claims for one group, or none at all. -/
structure Scene.Gains (g : Option Pid) (v v' : Scene) : Prop where
  own : v'.own = v.own
  claims : v'.claims ⊆ g.toList ++ v.claims

namespace Scene

variable {v v' v'' : Scene} {g : Option Pid}

/-- Nothing need be done. -/
theorem Proceeds.refl (v : Scene) : v.Proceeds v := ⟨rfl, List.Subset.refl _, .inl rfl⟩

/-- One thing after the other. -/
theorem Proceeds.trans (h : v.Proceeds v') (h' : v'.Proceeds v'') : v.Proceeds v'' := by
  refine ⟨h'.own.trans h.own, List.Subset.trans h'.claims h.claims, ?_⟩
  rcases h'.foreground with same | claimed
  · rw [same]
    exact h.foreground
  · exact .inr (h.claims claimed)

/-- With one child changed, the claims are its new ones and the ones of the others. -/
theorem claims_set_subset {i : Nat} {c c' : Starter} (hc : v.starters[i]? = some c) (h : c'.claims ⊆ c.claims) :
    { v with starters := v.starters.set i c' }.claims ⊆ v.claims := by
  intro g hg
  obtain ⟨d, hd, hgd⟩ := List.mem_flatMap.1 hg
  rcases List.mem_or_eq_of_mem_set hd with hd | rfl
  · exact List.mem_flatMap.2 ⟨d, hd, hgd⟩
  · exact List.mem_flatMap.2 ⟨c, List.mem_of_getElem? hc, h hgd⟩

/-- A step of a child. -/
theorem proceeds_step (v : Scene) (i : Nat) : v.Proceeds (v.step i) := by
  rw [step]
  split
  · exact .refl v
  · rename_i c hc
    split
    · exact .refl v
    · rename_i running
      have claims := c.claims_next (by simpa using running)
      have later : c.next.claims ⊆ c.claims := claims ▸ List.subset_append_right _ _
      refine ⟨rfl, claims_set_subset hc later, ?_⟩
      cases hg : c.claim? with
      | none => exact .inl rfl
      | some g =>
        refine .inr (List.mem_flatMap.2 ⟨c, List.mem_of_getElem? hc, ?_⟩)
        rw [claims, hg]
        exact List.mem_cons_self

/-- Steps of children. -/
theorem proceeds_steps (v : Scene) (is : List Nat) : v.Proceeds (v.steps is) := by
  induction is generalizing v with
  | nil => exact .refl v
  | cons i is ih => exact (proceeds_step v i).trans (ih (v.step i))

/-- A turn of the children. -/
theorem proceeds_turn (v : Scene) : v.Proceeds v.turn :=
  have steps := proceeds_steps { v with schedule := v.schedule.tail } (v.schedule.headD [])
  ⟨steps.own, steps.claims, steps.foreground⟩

/-- A child whose end is reported claims nothing more. -/
theorem proceeds_report (v : Scene) (result : WaitResult) : v.Proceeds (v.report result) := by
  rcases result with cause | status
  · exact .refl v
  · rw [report]
    split
    · refine ⟨rfl, ?_, .inl rfl⟩
      intro g hg
      obtain ⟨d, hd, hgd⟩ := List.mem_flatMap.1 hg
      obtain ⟨c, hc, rfl⟩ := List.mem_map.1 hd
      refine List.mem_flatMap.2 ⟨c, hc, ?_⟩
      split at hgd
      · cases hgd
      · exact hgd
    · exact .refl v

/-- What children do on their own brings no new claims. -/
theorem Proceeds.gains (h : v.Proceeds v') : v.Gains g v' := ⟨h.own, List.Subset.trans h.claims (List.subset_append_right _ _)⟩

/-- One thing after the other. -/
theorem Gains.trans (h : v.Gains g v') (h' : v'.Gains g v'') : v.Gains g v'' := by
  refine ⟨h'.own.trans h.own, fun pid hpid => ?_⟩
  rcases List.mem_append.1 (h'.claims hpid) with new | old
  · exact List.mem_append_left _ new
  · exact h.claims old

/-- A new child claims the terminal for the group that it joins. -/
theorem gains_adopt (v : Scene) (pid : Pid) (plan : ChildPlan) : v.Gains (plan.group.getD pid) (v.adopt pid plan) := by
  refine ⟨rfl, fun g hg => ?_⟩
  rw [claims, adopt, List.flatMap_append, List.mem_append] at hg
  rcases hg with hg | hg
  · exact List.mem_append_right _ hg
  · rw [List.flatMap_singleton] at hg
    exact List.mem_append_left _ (Starter.claimsFrom_steps pid v.own plan hg)

/-- A child that is placed in a group has no other new claims than for that one. -/
theorem gains_place (v : Scene) (pid pgid : Pid) : v.Gains pgid (v.place pid pgid) := by
  refine ⟨rfl, fun g hg => ?_⟩
  obtain ⟨d, hd, hgd⟩ := List.mem_flatMap.1 hg
  obtain ⟨c, hc, rfl⟩ := List.mem_map.1 hd
  have kept : g ∈ c.claims → g ∈ pgid :: v.claims := fun hgc => List.mem_cons_of_mem _ (List.mem_flatMap.2 ⟨c, hc, hgc⟩)
  split at hgd
  · rw [Starter.claims] at hgd
    split at hgd
    · cases hgd
    · rename_i running
      rcases List.mem_cons.1 (Starter.claimsFrom_subset c.pid c.group pgid c.steps hgd) with rfl | hgc
      · exact List.mem_cons_self
      · exact kept (by rwa [Starter.claims, if_neg running])
  · exact kept hgd

/-- Every claim that is left can still be made. -/
theorem foreground_of_claim {i : Nat} {c : Starter} (hc : v.starters[i]? = some c) {g : Pid} (hg : g ∈ c.claims) :
    ∃ n, (v.steps (List.replicate n i)).foreground = g := by
  obtain ⟨steps, hs⟩ : ∃ steps, c.steps = steps := ⟨_, rfl⟩
  induction steps generalizing v c with
  | nil =>
    rw [Starter.claims, hs] at hg
    split at hg <;> cases hg
  | cons step rest ih =>
    have running : c.ended = false := by
      cases he : c.ended with
      | false => rfl
      | true => simp [Starter.claims, he] at hg
    have stepped : v.step i = { v with starters := v.starters.set i c.next, foreground := c.claim?.getD v.foreground } := by
      rw [Scene.step, hc]
      exact if_neg (by simp [running])
    rw [c.claims_next running, List.mem_append] at hg
    rcases hg with now | later
    · refine ⟨1, ?_⟩
      have claim : c.claim? = some g := Option.mem_toList.1 now
      show (v.step i).foreground = g
      rw [stepped, claim]
      rfl
    · have inside : i < v.starters.length := (List.getElem?_eq_some_iff.1 hc).1
      have next : (v.step i).starters[i]? = some c.next := by
        rw [stepped]
        exact List.getElem?_set_self inside
      have shorter : c.next.steps = rest := by
        rw [Starter.next, hs]
        cases step <;> rfl
      obtain ⟨n, hn⟩ := ih next later shorter
      exact ⟨n + 1, hn⟩

/-- Whatever the children do, the terminal stays where it is, if and only if there is no claim left for another group. -/
theorem stays_iff (v : Scene) : (∀ is, (v.steps is).foreground = v.foreground) ↔ ∀ g ∈ v.claims, g = v.foreground := by
  constructor
  · intro h g hg
    obtain ⟨c, hc, hgc⟩ := List.mem_flatMap.1 hg
    obtain ⟨i, hi⟩ := List.mem_iff_getElem?.1 hc
    obtain ⟨n, hn⟩ := foreground_of_claim hi hgc
    exact hn.symm.trans (h _)
  · intro h is
    rcases (proceeds_steps v is).foreground with same | claimed
    · exact same
    · exact h _ claimed

end Scene

/-! ## What the shell makes of the terminal -/

namespace LateClaimsAux

open Scene

variable {S : System σ}

/-- A request that has to do neither with the terminal nor with a new child only gives the children their turn. -/
theorem proceeds_of_asked {w w' : σ × Scene} (h : S.staged.Asked w w') : w.2.Proceeds w'.2 := by
  cases h with
  | poll | awaitProcess => exact (proceeds_turn _).trans (proceeds_report _ _)
  | _ => exact proceeds_turn _

/-- What the children do on their own makes up a frame for jobs. -/
theorem jobFrame_proceeds (S : System σ) : JobFrame S.staged fun s s' => s.world.2.Proceeds s'.world.2 where
  refl _ := .refl _
  trans := .trans
  environment _ _ := .refl _
  asked := proceeds_of_asked
  announced _ _ := .refl _
  collected _ _ := .refl _
  timed _ _ _ _ := .refl _
  ended _ _ _ _ := .refl _
  finished _ _ _ := .refl _
  suspended _ _ _ _ _ := .refl _
  resumed _ _ _ _ _ := .refl _

/-- In a foreground wait the children are on their own. -/
theorem proceeds_awaitGroup (w : GroupWait) : Within (fun s s' => s.world.2.Proceeds s'.world.2) (awaitGroup S.staged w) := by
  have once : Within (fun s s' => s.world.2.Proceeds s'.world.2) (ask (S.staged.await w.pgid)) := fun s =>
    (proceeds_turn s.world.2).trans (proceeds_report _ _)
  exact (jobFrame_proceeds S).awaitGroupFrom once S.patience {}

/-- A new child claims the terminal for the group of its plan. -/
theorem gains_fork {plan : ChildPlan} {s s' : Session (σ × Scene)} {child : Pid}
    (h : ask (S.staged.fork plan) s = (.ok child, s')) : s.world.2.Gains (plan.group.getD child) s'.world.2 := by
  obtain ⟨answer, rfl⟩ := Prod.mk.inj h
  have made : (S.fork plan s.world.1).1 = .ok child := answer
  show s.world.2.Gains _ (match (S.fork plan s.world.1).1 with
    | .ok pid => s.world.2.turn.adopt pid plan
    | .error _ => s.world.2.turn)
  rw [made]
  exact (proceeds_turn _).gains.trans (gains_adopt _ child plan)

/-- The children of a pipeline claim the terminal for the first one's group. -/
theorem gains_forkStages (shell : String) (foreground claimsTerminal : Bool) (stages : List Stage) (index : Nat) (pipes : PipeSet)
    (made : List Pid) (s : Session (σ × Scene)) {pids : List Pid} {s' : Session (σ × Scene)}
    (h : forkStages S.staged shell foreground claimsTerminal stages index pipes made s = (.ok pids, s')) :
    made <+: pids ∧ s.world.2.Gains pids.head? s'.world.2 := by
  have frame := jobFrame_proceeds S
  induction stages generalizing index pipes made s with
  | nil =>
    obtain ⟨answer, rfl⟩ := Prod.mk.inj h
    cases answer
    exact ⟨List.prefix_refl _, (frame.closeAll pipes.openDescriptors s).gains⟩
  | cons stage rest ih =>
    rw [forkStages, bind_apply, get_apply, bind_apply] at h
    dsimp only at h
    generalize hplan : ChildPlan.mk .. = plan at h
    have group : plan.group = made.head? := by rw [← hplan]
    generalize hq : ask (S.staged.fork plan) s = q at h
    obtain ⟨r, s₁⟩ := q
    cases r with
    | error cause =>
      have impossible : Except.error (ExecError.fork cause) = Except.ok pids := congrArg Prod.fst h
      cases impossible
    | ok child =>
      have forked := gains_fork hq
      rw [group] at forked
      have placed := (proceeds_turn s₁.world.2).gains.trans (gains_place _ child (made.head?.getD child))
      -- Whether a pipe is released or not, the rest is made next.
      obtain ⟨pipes', s₃, released, hrest⟩ : ∃ pipes' s₃,
          (tell (S.staged.placeInGroup child (made.head?.getD child)) s₁).2.world.2.Proceeds s₃.world.2 ∧
          forkStages S.staged shell foreground claimsTerminal rest (index + 1) pipes' (made ++ [child]) s₃ = (.ok pids, s') := by
        cases index with
        | zero => exact ⟨_, _, .refl _, h⟩
        | succ i => exact ⟨_, _, frame.closeAll _ _, h⟩
      obtain ⟨begins, gained⟩ := ih (index + 1) pipes' (made ++ [child]) s₃ hrest
      have leader : pids.head? = some (made.head?.getD child) := by
        obtain ⟨later, rfl⟩ := begins
        cases made <;> rfl
      rw [leader] at gained ⊢
      exact ⟨(List.prefix_append made [child]).trans begins, .trans (.trans (.trans forked placed) released.gains) gained⟩

/-- The children of a launched pipeline claim the terminal for the pipeline's group. -/
theorem gains_launch (shell : String) (p : Pipeline) (s : Session (σ × Scene)) {l : Launched} {s' : Session (σ × Scene)}
    (h : launch S.staged shell p s = (.ok l, s')) : s.world.2.Gains l.pgid s'.world.2 := by
  by_cases he : p.isEmpty
  · rw [launch, if_pos he] at h
    cases h
  have usable : p.unusable? = none := by
    cases hu : p.unusable? with
    | none => rfl
    | some stage =>
      rw [launch, if_neg he, hu] at h
      cases h
  rw [launch, if_neg he, usable] at h
  dsimp only at h
  rw [bind_apply] at h
  have opened : s.world.2.Proceeds (openPipes S.staged (p.stages.length - 1) s).2.world.2 :=
    (jobFrame_proceeds S).openPipesFrom {} (p.stages.length - 1) s
  generalize openPipes S.staged (p.stages.length - 1) s = q at h opened
  obtain ⟨r, s₁⟩ := q
  cases r with
  | error cause => cases h
  | ok pipes =>
    dsimp only at h
    rw [bind_apply, bind_apply] at h
    generalize hq : forkStages .. = q at h
    obtain ⟨r, s₂⟩ := q
    rcases r with e | (_ | ⟨leader, rest⟩)
    · cases h
    · cases h
    · obtain ⟨-, gained⟩ := gains_forkStages _ _ _ _ _ _ _ _ hq
      obtain ⟨answer, rfl⟩ := Prod.mk.inj h
      cases answer
      exact opened.gains.trans gained

/-- The shell has the terminal when it takes it back, and no claim is new by then. -/
theorem gains_awaitForeground (l : Launched) (s : Session (σ × Scene)) :
    (awaitForeground S.staged l s).2.world.2.foreground = s.world.2.own ∧
      s.world.2.Gains none (awaitForeground S.staged l s).2.world.2 := by
  rw [awaitForeground, bind_apply, bind_apply, bind_apply]
  generalize hg : (giveTerminal S.staged l.pgid s).2 = s₁
  generalize hw : (awaitGroup S.staged _ s₁).2 = s₂
  have given : s₁.world.2 = { s.world.2.turn with foreground := l.pgid } := hg ▸ rfl
  have turned := proceeds_turn s.world.2
  have waited : s₁.world.2.Proceeds s₂.world.2 := hw ▸ proceeds_awaitGroup _ s₁
  have turned' := proceeds_turn s₂.world.2
  rw [given] at waited
  have own : s₂.world.2.own = s.world.2.own := waited.own.trans turned.own
  exact ⟨own, turned'.own.trans own, List.Subset.trans turned'.claims (List.Subset.trans waited.claims turned.claims)⟩

end LateClaimsAux

open LateClaimsAux Scene

variable {S : System σ} {x : Executor} {p : Pipeline} {l : Launched} {s s' : Session (σ × Scene)}

/-- What becomes of the terminal when a pipeline was launched in the foreground, whatever the system answers and whenever the children
take their steps: the shell has it when it takes it back, and from then on, while the pipeline is recorded and whatever the children do
after that, until a claim is made that was left at that moment. The claims that are left are for the pipeline's group, or older than the
pipeline. -/
theorem terminal_of_returned (hl : launch S.staged x.name p s = (.ok l, s')) (hb : p.background = false) (command : String) :
    let v := (awaitForeground S.staged l s').2.world.2
    let v' := (runProcesses S.staged x p command s).2.world.2
    v.foreground = s.world.2.own ∧ v.claims ⊆ l.pgid :: s.world.2.claims ∧
      ∀ is, (v'.steps is).foreground = s.world.2.own ∨ (v'.steps is).foreground ∈ v.claims := by
  intro v v'
  have launched := gains_launch x.name p s hl
  obtain ⟨back, waited⟩ := gains_awaitForeground (S := S) l s'
  have returned : v.Proceeds v' := (jobFrame_proceeds S).settled hl hb command
  have hv : v.foreground = s.world.2.own := back.trans launched.own
  refine ⟨hv, List.Subset.trans waited.claims launched.claims, fun is => ?_⟩
  rw [← hv]
  exact (returned.trans (proceeds_steps v' is)).foreground

/-- A system that makes a leader and one other process, and tells of every group that its leader stopped. -/
def System.suspending : System Unit :=
  { System.idle with
    makePipe := fun _ => (.ok (3, 4), ())
    fork := fun plan _ => (.ok (plan.group.elim 100 (· + 1)), ())
    await := fun pgid _ => (.ok (.stopped pgid .stop), ()) }

/-- The leader of a pipeline stops before the other process has taken a step. The shell has taken the terminal back and returned, when
the other process claims it for the pipeline. -/
theorem taken_after_return :
    let v : Scene := { own := 10, foreground := 10, schedule := [[], [], [0, 0, 0, 0, 0, 0, 0]] }
    let r := runProcesses System.suspending.staged {} { stages := [⟨"vi", []⟩, ⟨"cat", []⟩] } "vi | cat" { world := ((), v) }
    r.1 = 147 ∧ r.2.world.2.foreground = 10 ∧ (r.2.world.2.steps [1, 1]).foreground = 100 := by
  decide +kernel

end JobShell
