import JobShell.Proofs.Sessions.Operations

/-!
# Handing the terminal over

The terminal is handed to a group and taken back in pairs: once for each pipeline that is launched in the foreground, once for each
job that is continued there, and never otherwise (`handovers`). `handovers_are_paired` says so of all that a session asks of its
terminal, whatever the system answers: the pair is complete also where the continuation or the wait fails.

The waits that block on a group are no requests to the terminal. To see where they stand between the pairs, the same operations are
looked at on a system that keeps a log (`System.logging`) and answers as it did. The argument is one for both: a `Recorder` is anything
that grows with each hand-over and each take-back.
-/

namespace JobShell

open Act

variable {σ α ρ : Type}

/-- A request that has to do with the foreground: to hand the terminal to a group, to wait for a group, or to take the terminal back. -/
inductive Request where
  | giveTo (pgid : Pid)
  | await (pgid : Pid)
  | reclaim
  deriving DecidableEq, Repr

namespace System

/-- A request that is passed on and entered in the log as these. -/
def passOn (entries : List Request) (request : σ → α × σ) (w : σ × List Request) : α × (σ × List Request) :=
  ((request w.1).1, ((request w.1).2, w.2 ++ entries))

/-- The system with a log of the requests that have to do with the foreground. -/
def logging (S : System σ) : System (σ × List Request) where
  patience := S.patience
  groupOf pid w := S.groupOf pid w.1
  signalGroup pgid signal := passOn [] (S.signalGroup pgid signal)
  signalProcess pid signal := passOn [] (S.signalProcess pid signal)
  await pgid := passOn [.await pgid] (S.await pgid)
  awaitProcess pid := passOn [] (S.awaitProcess pid)
  poll pgid := passOn [] (S.poll pgid)
  terminalAttached w := S.terminalAttached w.1
  giveTerminal pgid := passOn [.giveTo pgid] (S.giveTerminal pgid)
  reclaimTerminal := passOn [.reclaim] S.reclaimTerminal
  makePipe := passOn [] S.makePipe
  closeDescriptor d w := (S.closeDescriptor d w.1, w.2)
  fork plan := passOn [] (S.fork plan)
  placeInGroup pid pgid w := (S.placeInGroup pid pgid w.1, w.2)
  workingDirectory w := S.workingDirectory w.1
  changeDirectory path := passOn [] (S.changeDirectory path)
  write stream text w := (S.write stream text w.1, w.2)
  promptsForLines w := S.promptsForLines w.1
  readLine := passOn [] S.readLine
  now w := S.now w.1
  wakeAt time w := (S.wakeAt time w.1, w.2)
  beginInteractive := passOn [] S.beginInteractive
  hostName w := S.hostName w.1
  accountName w := S.accountName w.1
  accountHome w := S.accountHome w.1
  readText path w := S.readText path w.1
  saveText directory file text w := (S.saveText directory file text w.1, w.2)

end System

/-- A group that has the terminal, and how often it is waited for until it is taken back. -/
structure Visit where
  group : Pid
  waits : Nat
  deriving DecidableEq, Repr

/-- The requests of a visit. -/
def Visit.requests (v : Visit) : List Request :=
  .giveTo v.group :: (List.replicate v.waits (.await v.group) ++ [.reclaim])

/-! ## The hand-overs that are due -/

/-- The group of the job that `fg` with these operands continues, if there is such a job. -/
def groupOfTarget? (operands : List String) (s : Session σ) : Option Pid :=
  match (targetJob "fg" operands s).1 with
  | .ok id => (s.table.find? id).map (·.pgid)
  | .error _ => none

/-- The group that the terminal is to be handed to in an operation that begins in this session: the one of the job to continue in
the foreground, if there is such a job, or the one of the pipeline that is launched there. -/
def Operation.handover? (S : System σ) (x : Executor) (s : Session σ) : Operation → Option Pid
  | .foreground id => (s.table.find? id).map (·.pgid)
  | .run p _ =>
    match x.inShell? p with
    | some stage => if Builtin.find? x.builtins stage.program = some .fg then groupOfTarget? stage.operands s else none
    | none =>
      match (launch S x.name p s).1 with
      | .ok l => if p.background then none else some l.pgid
      | .error _ => none
  | _ => none

/-- The groups that the terminal is to be handed to in these operations, in order. -/
def handovers (S : System σ) (x : Executor) : List Operation → Session σ → List Pid
  | [], _ => []
  | o :: rest, s => (o.handover? S x s).toList ++ handovers S x rest (o.act S x s).2

/-! ## Recorders -/

/-- What grows with each hand-over, each wait for a group and each take-back, and with nothing else. -/
structure Recorder (S : System σ) (ρ : Type) where
  calls : Session σ → List ρ
  give : Pid → ρ
  wait : Pid → List ρ
  reclaim : ρ
  frame : LaunchFrame S fun s s' => calls s' = calls s
  account : ∀ s table notices, calls { s with table, notices } = calls s
  aside : ∀ s lastStatus exiting collector, calls { s with lastStatus, exiting, collector } = calls s
  gives : ∀ pgid s, calls (giveTerminal S pgid s).2 = calls s ++ [give pgid]
  waits : ∀ pgid s, calls (ask (S.await pgid) s).2 = calls s ++ wait pgid
  reclaims : ∀ s, calls (reclaimTerminal S s).2 = calls s ++ [reclaim]

namespace Recorder

variable {S : System σ} (k : Recorder S ρ)

/-- What a visit adds to the record. -/
def entries (v : Visit) : List ρ := k.give v.group :: ((List.replicate v.waits (k.wait v.group)).flatten ++ [k.reclaim])

/-- From the one session to the other the record grew by a visit of this group, or not at all if there is none. -/
def Shows (g : Option Pid) (s s' : Session σ) : Prop :=
  ∃ v : Option Visit, v.map Visit.group = g ∧ k.calls s' = k.calls s ++ v.toList.flatMap k.entries

/-- The terminal's requests in a session are a record that waits do not show in. -/
def ofTerminal (S : System σ) : Recorder S TerminalEvent where
  calls s := s.terminal
  give := .giveTo
  wait _ := []
  reclaim := .reclaim
  frame := ⟨⟨fun _ => rfl, fun h h' => h'.trans h, fun _ _ => rfl, fun _ => rfl⟩, fun _ _ => rfl, fun _ _ _ => rfl⟩
  account _ _ _ := rfl
  aside _ _ _ _ := rfl
  gives _ _ := rfl
  waits _ _ := (List.append_nil _).symm
  reclaims _ := rfl

/-- A request that is passed on without an entry leaves the log. -/
theorem log_of_asked {S : System σ} {w w' : σ × List Request} (h : S.logging.Asked w w') : w'.2 = w.2 := by
  cases h <;> first | rfl | exact List.append_nil _

/-- The log of a system is a record that waits show in. -/
def ofLog (S : System σ) : Recorder S.logging Request where
  calls s := s.world.2
  give := .giveTo
  wait pgid := [.await pgid]
  reclaim := .reclaim
  frame := ⟨⟨fun _ => rfl, fun h h' => h'.trans h, fun _ _ => rfl, log_of_asked⟩, fun _ _ => List.append_nil _, fun _ _ _ => rfl⟩
  account _ _ _ := rfl
  aside _ _ _ _ := rfl
  gives _ _ := rfl
  waits _ _ := rfl
  reclaims _ := rfl

/-- What leaves the record as it is makes up a frame for sessions. -/
theorem sessionFrame : SessionFrame S fun s s' => k.calls s' = k.calls s where
  toFrame := k.frame.toFrame
  announced s notices := k.account s s.table notices
  collected s _ := k.account s _ s.notices
  ended s _ _ _ := k.account s _ s.notices
  finished s _ _ := k.account s _ s.notices
  suspended s _ _ _ _ := k.account s _ s.notices
  resumed s _ _ _ _ := k.account s _ s.notices
  timed s _ c _ := k.aside s s.lastStatus s.exiting (some c)
  noted s status := k.aside s status s.exiting s.collector
  left s := k.aside s s.lastStatus true s.collector

/-- What adds nothing to the record but waits for one group makes up a frame for waits. -/
theorem waitFrame (pgid : Pid) :
    WaitFrame S fun s s' => ∃ n, k.calls s' = k.calls s ++ (List.replicate n (k.wait pgid)).flatten where
  refl _ := ⟨0, (List.append_nil _).symm⟩
  trans := by
    rintro s s' s'' ⟨n, h⟩ ⟨m, h'⟩
    refine ⟨n + m, ?_⟩
    rw [h', h, List.replicate_add, List.flatten_append, List.append_assoc]
  environment s e := ⟨0, (k.frame.environment s e).trans (List.append_nil _).symm⟩
  asked h := ⟨0, (k.frame.asked h).trans (List.append_nil _).symm⟩
  announced s notices := ⟨0, (k.account s s.table notices).trans (List.append_nil _).symm⟩
  collected s _ := ⟨0, (k.account s _ s.notices).trans (List.append_nil _).symm⟩
  timed s _ c _ := ⟨0, (k.aside s s.lastStatus s.exiting (some c)).trans (List.append_nil _).symm⟩

variable {k} {s s' s'' : Session σ} {g : Option Pid}

/-- Where the record stays as it is, it shows no visit. -/
theorem shows_of_eq (h : k.calls s' = k.calls s) : k.Shows none s s' :=
  ⟨none, rfl, h.trans (List.append_nil _).symm⟩

/-- What happens without a trace may come before a visit and after it. -/
theorem Shows.between {t t' : Session σ} (hs : k.calls t = k.calls s) (h : k.Shows g t t') (hs' : k.calls s' = k.calls t') :
    k.Shows g s s' := by
  obtain ⟨v, hv, he⟩ := h
  exact ⟨v, hv, by rw [hs', he, hs]⟩

/-- A hand-over, a wait for the group and a take-back are a visit. -/
theorem shows_visit (w : GroupWait) (s : Session σ) {s' : Session σ} (hs' : k.calls s' = k.calls (giveTerminal S w.pgid s).2) :
    k.Shows (some w.pgid) s (reclaimTerminal S (awaitGroup S w s').2).2 := by
  have waited : ∃ n, k.calls (awaitGroup S w s').2 = k.calls s' ++ (List.replicate n (k.wait w.pgid)).flatten := by
    have once : Within (fun s s' => ∃ n, k.calls s' = k.calls s ++ (List.replicate n (k.wait w.pgid)).flatten)
        (ask (S.await w.pgid)) := fun s => ⟨1, by rw [k.waits]; simp⟩
    exact (k.waitFrame w.pgid).awaitGroupFrom once S.patience {} s'
  obtain ⟨n, hn⟩ := waited
  refine ⟨some ⟨w.pgid, n⟩, rfl, ?_⟩
  rw [k.reclaims, hn, hs', k.gives]
  simp [entries]

/-- The wait for a pipeline just launched is a visit of its group. -/
theorem shows_awaitForeground (l : Launched) (s : Session σ) : k.Shows (some l.pgid) s (awaitForeground S l s).2 := by
  rw [awaitForeground, bind_apply, bind_apply, bind_apply]
  exact shows_visit { pgid := l.pgid, expected := l.pids.length, statusPid := l.pids.getLast? } s rfl

/-- To continue a job in the foreground is a visit of its group, whatever comes of it, and nothing if there is no such job. -/
theorem shows_bringToForeground (id : JobId) (s : Session σ) :
    k.Shows ((s.table.find? id).map (·.pgid)) s (bringToForeground S id s).2 := by
  have frame := k.sessionFrame
  rw [bringToForeground, bind_apply, get_apply]
  dsimp only
  cases hc : s.table.claim? id with
  | none =>
    have missing : s.table.find? id = none := Option.map_eq_none_iff.1 hc
    rw [missing]
    exact shows_of_eq rfl
  | some claimed =>
    obtain ⟨t, c⟩ := claimed
    obtain ⟨j, hj, -, hg⟩ := JobTable.claim?_some hc
    have group : (s.table.find? id).map (·.pgid) = some c.group.pgid := by rw [hj, hg]; rfl
    rw [group]
    dsimp only
    rw [bind_apply, modify_apply, bind_apply, bind_apply]
    have began : k.calls { s with table := t } = k.calls s := k.account s t s.notices
    generalize { s with table := t } = s₁ at began ⊢
    have signalled := frame.ask (fun w => .signalGroup c.group.pgid .cont w) (giveTerminal S c.group.pgid s₁).2
    generalize hq : ask (S.signalGroup c.group.pgid .cont) (giveTerminal S c.group.pgid s₁).2 = q at signalled ⊢
    obtain ⟨r, s₂⟩ := q
    cases r with
    | error cause =>
      -- The job is put back without a wait.
      have visited : k.Shows (some c.group.pgid) s₁ (reclaimTerminal S s₂).2 := by
        refine ⟨some ⟨c.group.pgid, 0⟩, rfl, ?_⟩
        rw [k.reclaims, signalled, k.gives]
        simp [entries]
      exact visited.between began (k.account _ _ _)
    | ok =>
      have visited := shows_visit (k := k) c.group s₁ signalled
      dsimp only
      rw [bind_apply, bind_apply]
      generalize awaitGroup S c.group s₂ = q at visited ⊢
      obtain ⟨r, s₃⟩ := q
      dsimp only at visited ⊢
      refine visited.between began ?_
      generalize (reclaimTerminal S s₃).2 = s₄
      rcases r with cause | (status | ⟨signal, live⟩)
      · exact k.account _ _ _
      · exact frame.markFinished c.group.pgid status s₄
      · exact frame.trackStopped c.group.pgid c.command live [] s₄

/-- What comes after a visit without a trace leaves it the only one. -/
theorem Shows.bind {α β : Type} {a : Act σ α} {f : α → Act σ β} (h : k.Shows g s (a s).2)
    (hf : ∀ x, Within (fun s s' => k.calls s' = k.calls s) (f x)) : k.Shows g s ((a >>= f) s).2 :=
  h.between rfl (hf (a s).1 (a s).2)

/-- To find the job that a command names leaves the session as it is. -/
theorem targetJob_snd (command : String) (operands : List String) (s : Session σ) : (targetJob command operands s).2 = s := by
  cases operands with
  | nil =>
    rw [targetJob, bind_apply, get_apply]
    dsimp only
    cases s.table.current? <;> rfl
  | cons spec rest =>
    rw [targetJob]
    cases jobSpec? spec <;> rfl

/-- `fg` is a visit of the group of the job it is to continue, if there is such a job. -/
theorem shows_fg (operands : List String) (s : Session σ) : k.Shows (groupOfTarget? operands s) s (fg S operands s).2 := by
  have found := targetJob_snd "fg" operands s
  rw [fg, bind_apply, found, groupOfTarget?]
  generalize (targetJob "fg" operands s).1 = target
  cases target with
  | error result => exact shows_of_eq rfl
  | ok id =>
    refine (shows_bringToForeground id s).bind fun r => ?_
    cases r <;> exact k.frame.pure _

/-- A line that is run in the shell itself is a visit if it continues a job in the foreground, and none otherwise. -/
theorem shows_inShell (x : Executor) (p : Pipeline) (line : String) (s : Session σ) {stage : Stage}
    (hs : x.inShell? p = some stage) :
    k.Shows (if Builtin.find? x.builtins stage.program = some .fg then groupOfTarget? stage.operands s else none) s
      (execute S x p line s).2 := by
  have frame := k.sessionFrame
  split
  · rename_i hfg
    have named : k.Shows (groupOfTarget? stage.operands s) s (runNamed S x.builtins stage s).2 := by
      rw [runNamed, hfg]
      exact shows_fg stage.operands s
    have ran : k.Shows (groupOfTarget? stage.operands s) s (runInShell S x stage s).2 :=
      named.bind fun _ => frame.bind (frame.write _ _) fun _ => frame.bind (frame.write _ _) fun _ => frame.pure _
    rw [execute_of_inShell S line hs]
    exact ran.bind frame.remember
  · rename_i hfg
    exact shows_of_eq (frame.execute_inShell x p line hs (fun h => absurd h hfg) s)

/-- Any other line is a visit if it launches a pipeline in the foreground, and none otherwise. -/
theorem shows_launched (x : Executor) (p : Pipeline) (line : String) (s : Session σ) (hs : x.inShell? p = none) :
    k.Shows (match (launch S x.name p s).1 with
      | .ok l => if p.background then none else some l.pgid
      | .error _ => none) s (execute S x p line s).2 := by
  have frame := k.sessionFrame
  have silent : (∀ l s', launch S x.name p s = (.ok l, s') → p.background = true) → k.Shows none s (execute S x p line s).2 :=
    fun hb => shows_of_eq (frame.execute_launched k.frame x p line s hs (fun l s' _ _ => k.account s' _ s'.notices)
      fun l s' hl hf => absurd (hb l s' hl) (by simp [hf]))
  have launched : k.calls (launch S x.name p s).2 = k.calls s := k.frame.launch x.name p s
  cases hl : (launch S x.name p s).1 with
  | error e =>
    refine silent fun l s' he => ?_
    rw [he] at hl
    cases hl
  | ok l =>
    dsimp only
    cases hb : p.background with
    | true => exact silent fun _ _ _ => hb
    | false =>
      have ran : k.Shows (some l.pgid) s (runProcesses S x p (p.commandText line) s).2 := by
        have settled := frame.settled (Prod.ext hl rfl) hb (p.commandText line)
        exact (shows_awaitForeground l _).between launched settled
      show k.Shows (some l.pgid) s (execute S x p line s).2
      rw [execute_of_launched S line hs]
      split
      · rename_i he
        rw [launch, if_pos he] at hl
        cases hl
      · exact ran.bind frame.remember

/-- An operation is a visit of the group that it is to hand the terminal to, and none otherwise. -/
theorem shows_act (x : Executor) (o : Operation) (s : Session σ) : k.Shows (o.handover? S x s) s (o.act S x s).2 := by
  have frame := k.sessionFrame
  cases o with
  | run p line =>
    rw [Operation.handover?]
    cases hs : x.inShell? p with
    | some stage => exact shows_inShell x p line s hs
    | none => exact shows_launched x p line s hs
  | foreground id => exact shows_bringToForeground id s
  | collect => exact shows_of_eq (frame.collectPass s)
  | add pgid command background count => exact shows_of_eq (k.account s _ s.notices)
  | addPipeline pgid command background members => exact shows_of_eq (k.account s _ s.notices)
  | trackStopped pgid command live members => exact shows_of_eq (frame.trackStopped pgid command live members s)
  | markFinished pgid status => exact shows_of_eq (frame.markFinished pgid status s)
  | childExited pid status => exact shows_of_eq (frame.childExited pid status s)
  | childStatus status => exact shows_of_eq (frame.childStatus status s)
  | background id => exact shows_of_eq (frame.sendToBackground id s)
  | kill id signal => exact shows_of_eq (frame.killJob id signal s)
  | announce n => exact shows_of_eq (frame.announce n s)
  | list => exact shows_of_eq rfl
  | get id => exact shows_of_eq rfl

/-- Operations, one after the other, are the visits that are due, one after the other. -/
theorem calls_perform (k : Recorder S ρ) (x : Executor) (ops : List Operation) (s : Session σ) :
    ∃ visits : List Visit, visits.map (·.group) = handovers S x ops s ∧
      k.calls (perform S x ops s).2 = k.calls s ++ visits.flatMap k.entries := by
  induction ops generalizing s with
  | nil => exact ⟨[], rfl, (List.append_nil _).symm⟩
  | cons o rest ih =>
    obtain ⟨v, hv, he⟩ := shows_act (k := k) x o s
    obtain ⟨visits, hvs, hes⟩ := ih (o.act S x s).2
    refine ⟨v.toList ++ visits, ?_, ?_⟩
    · have first : v.toList.map (·.group) = (o.handover? S x s).toList := by
        rw [← hv]
        cases v <;> rfl
      rw [List.map_append, first, hvs]
      rfl
    · show k.calls (perform S x rest (o.act S x s).2).2 = _
      rw [hes, he, List.flatMap_append, List.append_assoc]

end Recorder

/-- Whatever the system answers, the terminal is handed over once for each pipeline that is launched in the foreground and for each
job that is found and continued there, to its group and in this order, and taken back each time before it is handed over again; and the
waits that block on a group all stand between the two, in the visit of their group. -/
theorem handovers_are_paired (S : System σ) (x : Executor) (ops : List Operation) :
    (∀ s : Session σ, (perform S x ops s).2.terminal =
      s.terminal ++ (handovers S x ops s).flatMap fun g => [.giveTo g, .reclaim]) ∧
    (∀ s : Session (σ × List Request), ∃ visits : List Visit, visits.map (·.group) = handovers S.logging x ops s ∧
      (perform S.logging x ops s).2.world.2 = s.world.2 ++ visits.flatMap Visit.requests) := by
  refine ⟨fun s => ?_, fun s => ?_⟩
  · obtain ⟨visits, hg, he⟩ := (Recorder.ofTerminal S).calls_perform x ops s
    have pairs : visits.flatMap (Recorder.ofTerminal S).entries =
        (visits.map (·.group)).flatMap fun g => [.giveTo g, .reclaim] := by
      rw [List.flatMap_map]
      refine List.flatMap_congr fun v _ => ?_
      simp [Recorder.entries, Recorder.ofTerminal]
    rw [← hg, ← pairs]
    exact he
  · obtain ⟨visits, hg, he⟩ := (Recorder.ofLog S).calls_perform x ops s
    have entries : (Recorder.ofLog S).entries = Visit.requests := by
      funext v
      simp [Recorder.entries, Recorder.ofLog, Visit.requests]
    exact ⟨visits, hg, entries ▸ he⟩

end JobShell
