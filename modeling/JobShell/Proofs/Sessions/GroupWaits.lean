import JobShell.Proofs.Sessions.Operations
import JobShell.Proofs.Threads.Sessions

/-!
# What a foreground wait comes to

A foreground wait takes one result after the other and makes something of each. Here it is said from the list of the results alone
what the wait comes to (`GroupWait.ComesTo`). Two kinds of results have a part in it: the ends of processes, which are counted, and the
results that decide the wait by themselves, which are a stop, the want of children and any other failure but an interruption. The first
to come wins: the last end that is expected, or a result that decides.

`outcome_of_answers` says that a wait whose answers decide it comes to just that, that it asks for no result more than it needs, and that
results without a part in it may stand anywhere between the others. The induction is on the answers that are still to come; what was heard
before them is kept in the progress of the wait (`GroupWait.Heard`).
-/

namespace JobShell

open Act SessionsAux

/-- The end of a process that a result tells of: which process it was, and how it ended. -/
def WaitResult.departure? : WaitResult → Option (Pid × ExitStatus)
  | .ok (.exited pid code) => some (pid, .exited code)
  | .ok (.signaled pid signal _) => some (pid, .signaled signal.number)
  | _ => none

/-- The result decides a wait by itself: a process stopped, or the wait failed, and not because it was interrupted. -/
def WaitResult.isDecisive : WaitResult → Bool
  | .ok (.stopped ..) => true
  | .ok _ => false
  | .error e => e ≠ .interrupted

/-- The result has a part in what a wait comes to. An interruption has none, nor has the news that a process goes on or is traced. -/
def WaitResult.matters (r : WaitResult) : Bool := r.isDecisive || r.departure?.isSome

/-- All the ends that these results tell of, in order. -/
def departuresIn (rs : List WaitResult) : List (Pid × ExitStatus) := rs.filterMap WaitResult.departure?

namespace GroupWait

/-- The ends that a wait counts: those before anything that decides it, and no more than it expects. -/
def departures (g : GroupWait) (rs : List WaitResult) : List (Pid × ExitStatus) :=
  (departuresIn (rs.takeWhile fun r => !r.isDecisive)).take g.expected

/-- The status that comes of these ends: the one of the last end of the process whose status is the pipeline's, or of the last end of all
where there is no such process. -/
def statusOf (g : GroupWait) (ends : List (Pid × ExitStatus)) : ExitStatus :=
  ((ends.filter fun e => g.statusPid.all (· == e.1)).getLast?.map (·.2)).getD .unknown

/-- The results are enough to decide the wait. -/
def DecidedBy (g : GroupWait) (rs : List WaitResult) : Prop :=
  (g.departures rs).length = g.expected ∨ ∃ r ∈ rs, r.isDecisive = true

/-- What a wait comes to that is decided by these results: all that it expects have ended, or before that it is said that there are no
children, that a process stopped, or that the wait failed. -/
inductive ComesTo (g : GroupWait) (rs : List WaitResult) : Except Errno ForegroundOutcome → Prop
  | complete (all : (g.departures rs).length = g.expected) : g.ComesTo rs (.ok (.finished (g.statusOf (g.departures rs))))
  | childless (before : (g.departures rs).length < g.expected) (first : rs.find? WaitResult.isDecisive = some (.error .noChild)) :
    g.ComesTo rs (.ok (.finished (g.statusOf (g.departures rs))))
  | stopped (before : (g.departures rs).length < g.expected) {pid : Pid} {signal : Signal}
    (first : rs.find? WaitResult.isDecisive = some (.ok (.stopped pid signal))) :
    g.ComesTo rs (.ok (.stopped signal (g.expected - (g.departures rs).length)))
  | failed (before : (g.departures rs).length < g.expected) {e : Errno} (other : e ≠ .noChild)
    (first : rs.find? WaitResult.isDecisive = some (.error e)) : g.ComesTo rs (.error e)

/-- How far a wait has come that heard these results and goes on. -/
structure Heard (g : GroupWait) (rs : List WaitResult) (p : WaitProgress) : Prop where
  open_ : ∀ r ∈ rs, r.isDecisive = false
  collected : p.collected = (departuresIn rs).length
  status : p.status = g.statusOf (departuresIn rs)
  expected : (departuresIn rs).length ≤ g.expected

end GroupWait

/-- Waits on a group are answered like this, one after the other, and lead from the one session to the other. -/
inductive AnsweredWith {σ : Type} (S : System σ) (pgid : Pid) : List WaitResult → Session σ → Session σ → Prop
  | nil (s : Session σ) : AnsweredWith S pgid [] s s
  | cons {r : WaitResult} {rs : List WaitResult} {s s₁ s' : Session σ} (once : awaitedOnce S pgid s = (r, s₁))
    (rest : AnsweredWith S pgid rs s₁ s') : AnsweredWith S pgid (r :: rs) s s'

namespace GroupWaitsAux

open GroupWait

variable {g : GroupWait} {r : WaitResult} {heard : List WaitResult}

/-! ## The results of a wait -/

/-- The ends in two lists of results, one after the other. -/
theorem departuresIn_append (rs rs' : List WaitResult) : departuresIn (rs ++ rs') = departuresIn rs ++ departuresIn rs' :=
  List.filterMap_append

/-- Where nothing decides the wait, the ends before and after count. -/
theorem departures_append (h : ∀ r ∈ heard, r.isDecisive = false) (rs : List WaitResult) :
    g.departures (heard ++ rs) =
      (departuresIn heard ++ departuresIn (rs.takeWhile fun r => !r.isDecisive)).take g.expected := by
  have passed : (heard ++ rs).takeWhile (fun r => !r.isDecisive) = heard ++ rs.takeWhile fun r => !r.isDecisive :=
    List.takeWhile_append_of_pos fun r hr => by simp [h r hr]
  unfold departures
  rw [passed, departuresIn_append]

/-- The status after one more end. -/
theorem statusOf_concat (ends : List (Pid × ExitStatus)) (pid : Pid) (exit : ExitStatus) :
    g.statusOf (ends ++ [(pid, exit)]) = if g.statusPid = none ∨ some pid = g.statusPid then exit else g.statusOf ends := by
  unfold statusOf
  rw [List.filter_append]
  cases hs : g.statusPid with
  | none => simp
  | some last =>
    by_cases hl : last = pid
    · simp [hl]
    · have other : pid ≠ last := fun h => hl h.symm
      simp [hl, other]

end GroupWaitsAux

namespace GroupWait

open GroupWaitsAux

variable {g : GroupWait} {p : WaitProgress} {r : WaitResult} {heard : List WaitResult}

/-- A wait begins with nothing heard. -/
theorem Heard.start (g : GroupWait) : g.Heard [] {} := ⟨nofun, rfl, rfl, Nat.zero_le _⟩

/-- What was heard is what counts, while the wait goes on. -/
theorem Heard.departures_eq (h : g.Heard heard p) : g.departures heard = departuresIn heard := by
  have counted := departures_append (g := g) h.open_ []
  rw [List.append_nil] at counted
  rw [counted]
  simpa [departuresIn] using List.take_of_length_le h.expected

/-- A result that does not decide the wait is heard, and the wait goes on. -/
theorem Heard.hear (h : g.Heard heard p) (hopen : g.isComplete p = false) (hr : r.isDecisive = false) :
    ∃ p', g.observe p r = .proceed p' ∧ g.Heard (heard ++ [r]) p' := by
  have below : (departuresIn heard).length < g.expected := by
    rw [← h.collected]
    simpa [isComplete] using hopen
  have quiet : ∀ x ∈ heard ++ [r], x.isDecisive = false := by
    intro x hx
    rcases List.mem_append.1 hx with hx | hx
    · exact h.open_ x hx
    · rw [List.mem_singleton.1 hx, hr]
  -- A result that tells of no end leaves the progress as it is.
  have passed : g.observe p r = .proceed p → r.departure? = none → ∃ p', g.observe p r = .proceed p' ∧ g.Heard (heard ++ [r]) p' := by
    intro ho hd
    have same : departuresIn (heard ++ [r]) = departuresIn heard := by
      rw [departuresIn_append]
      simp [departuresIn, hd]
    exact ⟨p, ho, quiet, by rw [same, h.collected], by rw [same, h.status], by rw [same]; exact h.expected⟩
  have counted : ∀ pid exit, g.observe p r = .proceed (g.collect p (some pid) exit) → r.departure? = some (pid, exit) →
      ∃ p', g.observe p r = .proceed p' ∧ g.Heard (heard ++ [r]) p' := by
    intro pid exit ho hd
    have more : departuresIn (heard ++ [r]) = departuresIn heard ++ [(pid, exit)] := by
      rw [departuresIn_append]
      simp [departuresIn, hd]
    refine ⟨_, ho, quiet, ?_, ?_, ?_⟩
    · rw [more, List.length_append, ← h.collected]
      rfl
    · rw [more, statusOf_concat, ← h.status]
      rfl
    · rw [more, List.length_append]
      exact below
  rcases r with e | w
  · have interrupted : e = .interrupted := by simpa [WaitResult.isDecisive] using hr
    exact passed (by rw [observe, if_pos interrupted]) rfl
  · cases w with
    | exited pid code => exact counted pid _ rfl rfl
    | signaled pid signal core => exact counted pid _ rfl rfl
    | stopped pid signal => cases hr
    | continued | traceEvent | traceCall | stillAlive => exact passed rfl rfl

/-- A result that decides the wait, while it goes on, is what the wait comes to. -/
theorem Heard.decide (h : g.Heard heard p) (hopen : g.isComplete p = false) (hr : r.isDecisive = true) (rest : List WaitResult) :
    ∃ out, g.observe p r = .settled out ∧ g.ComesTo (heard ++ r :: rest) out := by
  have counted : g.departures (heard ++ r :: rest) = departuresIn heard := by
    rw [departures_append h.open_]
    simpa [hr, departuresIn] using List.take_of_length_le h.expected
  have before : (g.departures (heard ++ r :: rest)).length < g.expected := by
    rw [counted, ← h.collected]
    simpa [isComplete] using hopen
  have first : (heard ++ r :: rest).find? WaitResult.isDecisive = some r := by
    have none_before : heard.find? WaitResult.isDecisive = none := by
      rw [List.find?_eq_none]
      intro x hx
      simp [h.open_ x hx]
    rw [List.find?_append, none_before, List.find?_cons_of_pos hr]
    rfl
  have status : g.statusOf (g.departures (heard ++ r :: rest)) = p.status := by rw [counted, h.status]
  have live : g.expected - (g.departures (heard ++ r :: rest)).length = g.expected - p.collected := by rw [counted, h.collected]
  rcases r with e | w
  · have uninterrupted : e ≠ .interrupted := by simpa [WaitResult.isDecisive] using hr
    by_cases hn : e = .noChild
    · subst hn
      exact ⟨_, rfl, status ▸ .childless before first⟩
    · refine ⟨.error e, ?_, .failed before hn first⟩
      rw [observe, if_neg uninterrupted, if_neg hn]
  · cases w with
    | stopped pid signal => exact ⟨_, rfl, live ▸ .stopped before first⟩
    | exited | signaled | continued | traceEvent | traceCall | stillAlive => cases hr

/-- A wait that heard all that it expects has come to its end, whatever would follow. -/
theorem Heard.complete (h : g.Heard heard p) (hc : g.isComplete p = true) (rest : List WaitResult) :
    g.DecidedBy heard ∧ g.ComesTo (heard ++ rest) (.ok (.finished p.status)) := by
  have all : (departuresIn heard).length = g.expected := by
    have enough : g.expected ≤ p.collected := by simpa [isComplete] using hc
    rw [h.collected] at enough
    exact Nat.le_antisymm h.expected enough
  have counted : g.departures (heard ++ rest) = departuresIn heard := by
    rw [departures_append h.open_, ← all, List.take_left]
  refine ⟨.inl (by rw [h.departures_eq, all]), ?_⟩
  rw [h.status, ← counted]
  exact .complete (by rw [counted, all])

/-- While a wait goes on, it is not decided. -/
theorem Heard.undecided (h : g.Heard heard p) (hopen : g.isComplete p = false) : ¬g.DecidedBy heard := by
  have below : p.collected < g.expected := by simpa [isComplete] using hopen
  rintro (all | ⟨r, hr, decisive⟩)
  · rw [h.departures_eq, ← h.collected] at all
    omega
  · rw [h.open_ r hr] at decisive
    cases decisive

end GroupWait

/-! ## The wait -/

namespace GroupWaitsAux

open GroupWait

variable {σ : Type} {S : System σ} {g : GroupWait} {p : WaitProgress} {rs rs' heard : List WaitResult}
  {out out' : Except Errno ForegroundOutcome}

/-- A wait that has heard some results and is decided by those that are still to come takes as many of them as it needs to be decided
and comes to what they say. -/
theorem awaitGroupFrom_answered {patience : Nat} {s s'' : Session σ} (h : g.Heard heard p) (hs : AnsweredWith S g.pgid rs s s'')
    (hd : g.DecidedBy (heard ++ rs)) (hp : rs.length < patience) :
    ∃ out k s', g.ComesTo (heard ++ rs) out ∧ awaitGroupFrom S g patience p s = (out, s') ∧ k ≤ rs.length ∧
      AnsweredWith S g.pgid (rs.take k) s s' ∧ g.DecidedBy (heard ++ rs.take k) ∧ ∀ m < k, ¬g.DecidedBy (heard ++ rs.take m) := by
  induction rs generalizing heard p patience s with
  | nil =>
    obtain ⟨patience, rfl⟩ := Nat.exists_eq_succ_of_ne_zero (Nat.ne_of_gt hp)
    cases hc : g.isComplete p with
    | true =>
      obtain ⟨decided, comes⟩ := h.complete hc []
      exact ⟨_, 0, s, comes, awaitGroupFrom_complete patience s hc, Nat.le_refl 0, .nil s, hd, nofun⟩
    | false => exact absurd (List.append_nil heard ▸ hd) (h.undecided hc)
  | cons r rest ih =>
    obtain ⟨patience, rfl⟩ := Nat.exists_eq_succ_of_ne_zero (Nat.ne_of_gt (Nat.zero_lt_of_lt hp))
    cases hc : g.isComplete p with
    | true =>
      obtain ⟨decided, comes⟩ := h.complete hc (r :: rest)
      exact ⟨_, 0, s, comes, awaitGroupFrom_complete patience s hc, Nat.zero_le _, .nil s, by simpa using decided, nofun⟩
    | false =>
      have undecided := h.undecided hc
      obtain ⟨once, answered⟩ : ∃ s₁, awaitedOnce S g.pgid s = (r, s₁) ∧ AnsweredWith S g.pgid rest s₁ s'' := by
        cases hs with
        | cons once answered => exact ⟨_, once, answered⟩
      obtain ⟨once, answered⟩ := answered
      rw [awaitGroupFrom_open patience s hc, once]
      dsimp only
      cases hr : r.isDecisive with
      | true =>
        obtain ⟨out, observed, comes⟩ := h.decide hc hr rest
        rw [observed]
        refine ⟨out, 1, _, comes, rfl, by simp, .cons once (.nil _), .inr ⟨r, by simp, hr⟩, fun m hm => ?_⟩
        obtain rfl : m = 0 := by omega
        simpa using undecided
      | false =>
        obtain ⟨p', observed, heard'⟩ := h.hear hc hr
        rw [observed]
        have shift : ∀ l : List WaitResult, heard ++ r :: l = heard ++ [r] ++ l := fun l => by simp
        rw [shift] at hd
        obtain ⟨out, k, s', comes, awaited, hk, taken, decided, minimal⟩ := ih heard' answered hd (by simpa using hp)
        refine ⟨out, k + 1, s', by rwa [shift], awaited, by simpa using hk, .cons once taken, ?_, fun m hm => ?_⟩
        · rwa [List.take_succ_cons, shift]
        · cases m with
          | zero => simpa using undecided
          | succ m =>
            rw [List.take_succ_cons, shift]
            exact minimal m (by omega)

/-! ## Results without a part in the outcome -/

/-- The ends that count are the same without the results that have no part. -/
theorem departuresIn_matters (rs : List WaitResult) :
    departuresIn ((rs.filter WaitResult.matters).takeWhile fun r => !r.isDecisive) =
      departuresIn (rs.takeWhile fun r => !r.isDecisive) := by
  induction rs with
  | nil => rfl
  | cons r rest ih =>
    unfold departuresIn at ih ⊢
    cases hr : r.isDecisive with
    | true => simp [WaitResult.matters, hr]
    | false =>
      cases hd : r.departure? with
      | none => simp [WaitResult.matters, hr, hd, ih]
      | some end_ => simp [WaitResult.matters, hr, hd, ih]

/-- The result that decides is the same without the results that have no part. -/
theorem find?_matters (rs : List WaitResult) : (rs.filter WaitResult.matters).find? WaitResult.isDecisive = rs.find? WaitResult.isDecisive := by
  rw [List.find?_filter]
  congr 1
  funext r
  cases hr : r.isDecisive <;> simp [WaitResult.matters, hr]

/-- What a wait comes to depends on nothing but the ends that count and the result that decides. -/
theorem comesTo_congr (hd : g.departures rs = g.departures rs')
    (hf : rs.find? WaitResult.isDecisive = rs'.find? WaitResult.isDecisive) (h : g.ComesTo rs out) : g.ComesTo rs' out := by
  cases h with
  | complete all =>
    rw [hd] at all ⊢
    exact .complete all
  | childless before first =>
    rw [hd] at before ⊢
    exact .childless before (hf ▸ first)
  | stopped before first =>
    rw [hd] at before ⊢
    exact .stopped before (hf ▸ first)
  | failed before other first => exact .failed (hd ▸ before) other (hf ▸ first)

/-- A wait comes to one thing only. -/
theorem comesTo_unique (h : g.ComesTo rs out) (h' : g.ComesTo rs out') : out = out' := by
  cases h <;> cases h' <;> first | rfl | omega | simp_all

/-- Results without a part in the outcome make no difference to it. -/
theorem comesTo_matters (h : g.ComesTo rs out) (hm : rs'.filter WaitResult.matters = rs.filter WaitResult.matters) :
    g.ComesTo rs' out := by
  have ends : g.departures rs = g.departures rs' := by
    unfold departures
    rw [← departuresIn_matters rs, ← hm, departuresIn_matters rs']
  have first : rs.find? WaitResult.isDecisive = rs'.find? WaitResult.isDecisive := by
    rw [← find?_matters rs, ← hm, find?_matters rs']
  exact comesTo_congr ends first h

/-- A wait is decided if and only if it comes to something. -/
theorem decidedBy_of_comesTo (h : g.ComesTo rs out) : g.DecidedBy rs := by
  cases h with
  | complete all => exact .inl all
  | childless before first | stopped before first | failed before other first =>
    exact .inr ⟨_, List.mem_of_find?_eq_some first, List.find?_some first⟩

end GroupWaitsAux

open GroupWaitsAux GroupWait

variable {σ : Type} {S : System σ} {g : GroupWait} {rs : List WaitResult}

/-- A foreground wait whose answers are enough to decide it. It comes to what the answers say: it finishes with the status of the last
end that counts of the process asked for, once all that it expects have ended or there are no children; it stops with the first process
that stops before that, and then at least one process is left and no more than were expected; any other failure is its own. It takes the
answers that it needs to be decided, and not one more. And any wait for the group, on whatever system, comes to the same with answers
that differ only in results without a part in it. -/
theorem outcome_of_answers {s s'' : Session σ} (hs : AnsweredWith S g.pgid rs s s'') (hd : g.DecidedBy rs) (hp : rs.length < S.patience) :
    ∃ out k s', awaitGroup S g s = (out, s') ∧ g.ComesTo rs out ∧
      (∀ signal live, out = .ok (.stopped signal live) →
        live + (g.departures rs).length = g.expected ∧ 1 ≤ live ∧ live ≤ g.expected) ∧
      (k ≤ rs.length ∧ AnsweredWith S g.pgid (rs.take k) s s' ∧ g.DecidedBy (rs.take k) ∧ ∀ m < k, ¬g.DecidedBy (rs.take m)) ∧
      ∀ {τ : Type} (S' : System τ) (rs' : List WaitResult) (t t'' : Session τ), AnsweredWith S' g.pgid rs' t t'' →
        rs'.length < S'.patience → rs'.filter WaitResult.matters = rs.filter WaitResult.matters → (awaitGroup S' g t).1 = out := by
  obtain ⟨out, k, s', comes, awaited, taken⟩ := awaitGroupFrom_answered (Heard.start g) hs hd hp
  have comes : g.ComesTo rs out := comes
  refine ⟨out, k, s', awaited, comes, ?_, taken, ?_⟩
  · rintro signal live rfl
    cases comes with
    | stopped before first => omega
  · intro τ S' rs' t t'' ht hp' hm
    have comes' : g.ComesTo rs' out := comesTo_matters comes hm
    obtain ⟨out', _, _, decided, awaited', -⟩ :=
      awaitGroupFrom_answered (Heard.start g) ht (decidedBy_of_comesTo comes') hp'
    unfold awaitGroup
    rw [awaited']
    exact comesTo_unique decided comes'

/-- The system answers the waits for groups from a list, and nothing else takes from it. -/
structure System.Recites (S : System σ) (left : σ → List WaitResult) : Prop where
  await : ∀ pgid {w r rest}, left w = r :: rest → (S.await pgid w).1 = r ∧ left (S.await pgid w).2 = rest
  asked : ∀ {w w'}, S.Asked w w' → left w' = left w

/-- Any list of results can be answered with. -/
theorem answeredWith_of_recites {left : σ → List WaitResult} (h : S.Recites left) (pgid : Pid) (rs later : List WaitResult) (s : Session σ)
    (hs : left s.world = rs ++ later) : ∃ s', AnsweredWith S pgid rs s s' := by
  have frame : WaitFrame S fun s s' => left s'.world = left s.world :=
    { refl := fun _ => rfl, trans := fun h h' => h'.trans h, environment := fun _ _ => rfl, asked := h.asked
      announced := fun _ _ => rfl, collected := fun _ _ => rfl, timed := fun _ _ _ _ => rfl }
  induction rs generalizing s with
  | nil => exact ⟨s, .nil s⟩
  | cons r rest ih =>
    obtain ⟨answer, remaining⟩ := h.await pgid hs
    have once : (awaitedOnce S pgid s).1 = r ∧ left (awaitedOnce S pgid s).2.world = rest ++ later := by
      unfold awaitedOnce ask
      dsimp only
      refine ⟨answer, ?_⟩
      split
      · exact (frame.serveCollector _).trans remaining
      · exact remaining
    obtain ⟨s', answered⟩ := ih _ once.2
    exact ⟨s', .cons (Prod.ext once.1 rfl) answered⟩

/-- A system that answers the waits for groups from a list, as long as it lasts, and otherwise as another one. -/
def System.reciting (S : System σ) : System (σ × List WaitResult) :=
  { S.beside (List WaitResult) with
    patience := 16
    await := fun _ w => match w.2 with
      | [] => (.error .noChild, w)
      | r :: rest => (r, (w.1, rest)) }

/-- Such a system recites its list. -/
theorem recites_reciting (S : System σ) : S.reciting.Recites Prod.snd where
  await pgid {w r rest} hw := by
    unfold System.reciting
    dsimp only
    rw [hw]
    exact ⟨rfl, rfl⟩
  asked h := by cases h <;> rfl

/-- The last of three stages ends, then the first, and the second stops; what else is heard between has no part in it, and the end that
would be heard next is left. -/
theorem outcome_of_a_stop :
    let g : GroupWait := ⟨100, 3, some 102⟩
    let rs : List WaitResult := [.error .interrupted, .ok (.exited 102 7), .ok (.continued 101), .ok (.signaled 100 .term false),
      .ok (.traceEvent 101), .ok (.stopped 101 .tstp)]
    let s : Session (Unit × List WaitResult) := { world := ((), rs ++ [.ok (.exited 101 0)]) }
    g.DecidedBy rs ∧ rs.length < System.idle.reciting.patience ∧
      (awaitGroup System.idle.reciting g s).1 = .ok (.stopped .tstp 1) ∧ g.statusOf (g.departures rs) = .exited 7 := by
  intro g rs s
  have decided : g.DecidedBy rs := .inr ⟨.ok (.stopped 101 .tstp), by decide, rfl⟩
  obtain ⟨s', answered⟩ := answeredWith_of_recites (recites_reciting System.idle) g.pgid rs [.ok (.exited 101 0)] s rfl
  obtain ⟨out, _, _, awaited, comes, -⟩ := outcome_of_answers answered decided (by decide)
  have stops : g.ComesTo rs (.ok (.stopped .tstp 1)) := .stopped (by decide) rfl
  exact ⟨decided, by decide, by rw [awaited]; exact comesTo_unique comes stops, by decide⟩

end JobShell
