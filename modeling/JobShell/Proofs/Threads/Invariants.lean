import JobShell.Proofs.Threads.Interleaving

/-!
# What every run keeps

Statements about all runs, whatever is answered to waits and signals. The collection lock is where the points of the two
threads say (`Disciplined`), so the shell claims no job while a pass is on. The table stays well-formed, and a claim remembers a
job that had not ended (`Sound`).
-/

namespace JobShell

namespace ShellPoint

/-- The claim that the shell carries. -/
def claim? : ShellPoint → Option Claim
  | .unlocking _ c => c
  | .continuing _ c | .restoring _ c _ => some c
  | .waiting f _ | .settling f _ => f.claimed.map (·.2)
  | _ => none

variable {t t' : JobTable} {p p' : ShellPoint} {e : Event}

/-- The point after a notice is without the lock. -/
@[simp]
theorem holdsLock_tell (n : Option Notice) (reply : Reply) : (tell n reply).holdsLock = false := by
  cases n <;> rfl

/-- The point after a notice carries no claim. -/
@[simp]
theorem claim?_tell (n : Option Notice) (reply : Reply) : (tell n reply).claim? = none := by
  cases n <;> rfl

/-- The point after the lock was given back is without it. -/
@[simp]
theorem holdsLock_afterClaim (id : JobId) (c : Option Claim) : (afterClaim id c).holdsLock = false := by
  cases c <;> rfl

/-- The point after the lock was given back carries the claim. -/
@[simp]
theorem claim?_afterClaim (id : JobId) (c : Option Claim) : (afterClaim id c).claim? = c := by
  cases c <;> rfl

/-- The shell neither takes nor gives the lock where it just moves on. -/
theorem Moves.holdsLock (h : p.Moves t e p') : p'.holdsLock = p.holdsLock := by
  cases h <;> first | rfl | (split <;> rfl)

/-- The shell neither takes nor gives the lock where it changes the table. -/
theorem Changes.holdsLock (h : p.Changes t e t' p') : p'.holdsLock = p.holdsLock := by
  cases h <;> first | rfl | exact holdsLock_tell _ _

/-- The shell carries the same claim or none where it just moves on. -/
theorem Moves.claim? (h : p.Moves t e p') : p'.claim? = p.claim? ∨ p'.claim? = none := by
  cases h <;> first | exact Or.inl rfl | exact Or.inr rfl | (right; split <;> rfl)

end ShellPoint

namespace CollectorPoint

/-- A pass goes on after a notice. -/
@[simp]
theorem inPass_tell (n : Option Notice) (work : List Pid) : (tell n work).inPass = true := by
  cases n <;> rfl

/-- A notice leaves the groups that are to be visited. -/
@[simp]
theorem work_tell (n : Option Notice) (work : List Pid) : (tell n work).work = work := by
  cases n <;> rfl

/-- Where a wait on a group leads to: on to the rest, to the same group again, to the record of a status change, or to the end of its job. -/
theorem afterPoll_cases (pgid : Pid) (rest : List Pid) (result : WaitResult) :
    afterPoll pgid rest result = .visiting rest ∨
    (result = .error .interrupted ∧ afterPoll pgid rest result = .visiting (pgid :: rest)) ∨
    (∃ w, result = .ok w ∧ afterPoll pgid rest result = .recording w (pgid :: rest)) ∨
    (result = .error .noChild ∧ afterPoll pgid rest result = .concluding pgid rest) := by
  cases result with
  | error e =>
    by_cases hi : e = .interrupted
    · subst hi
      exact Or.inr (Or.inl ⟨rfl, rfl⟩)
    · by_cases hn : e = .noChild
      · subst hn
        exact Or.inr (Or.inr (Or.inr ⟨rfl, rfl⟩))
      · left
        simp only [afterPoll, if_neg hi, if_neg hn]
  | ok w =>
    by_cases hw : w = .stillAlive
    · subst hw
      exact Or.inl rfl
    · refine Or.inr (Or.inr (Or.inl ⟨w, rfl, ?_⟩))
      simp only [afterPoll]

/-- A pass goes on after a wait. -/
@[simp]
theorem inPass_afterPoll (pgid : Pid) (rest : List Pid) (result : WaitResult) :
    (afterPoll pgid rest result).inPass = true := by
  rcases afterPoll_cases pgid rest result with h | ⟨-, h⟩ | ⟨w, -, h⟩ | ⟨-, h⟩ <;> rw [h] <;> rfl

/-- A wait adds no group to the ones that are to be visited. -/
theorem work_afterPoll (pgid : Pid) (rest : List Pid) (result : WaitResult) :
    (afterPoll pgid rest result).work ⊆ pgid :: rest := by
  rcases afterPoll_cases pgid rest result with h | ⟨-, h⟩ | ⟨w, -, h⟩ | ⟨-, h⟩ <;> rw [h] <;>
    first | exact List.subset_cons_self _ _ | exact List.Subset.refl _

end CollectorPoint

variable {A : Assumption} {es es' : List Event} {e : Event} {s s' : State}

/-! ## The lock -/

/-- The lock is with the thread whose point says so. -/
structure Disciplined (s : State) : Prop where
  shell : s.shell.holdsLock = true ↔ s.lock = some .shell
  collector : s.collector.inPass = true ↔ s.lock = some .collector

namespace Disciplined

/-- In a fresh session nobody has the lock. -/
theorem start : Disciplined {} := ⟨by decide, by decide⟩

/-- Only one thread has the lock. -/
theorem alone (h : Disciplined s) (hs : s.shell.holdsLock = true) : s.collector = .resting := by
  have hl := h.shell.1 hs
  have hc : s.collector.inPass ≠ true := fun hc => by
    have := h.collector.1 hc
    rw [hl] at this
    cases this
  cases hp : s.collector <;> first | rfl | (rw [hp] at hc; exact absurd rfl hc)

/-- Every step keeps the lock where the points say. -/
theorem step (h : Disciplined s) (hs : Step s e s') : Disciplined s' := by
  obtain ⟨hsh, hco⟩ := h
  cases hs with
  | move moves => exact ⟨by rw [moves.holdsLock]; exact hsh, hco⟩
  | change changes => exact ⟨by rw [changes.holdsLock]; exact hsh, hco⟩
  | lock at_ free => exact ⟨by simp [ShellPoint.holdsLock], by rw [hco, free]; simp⟩
  | unlock at_ =>
    have hl : s.lock = some .shell := hsh.1 (by rw [at_]; rfl)
    exact ⟨by simp, by rw [hco, hl]; simp⟩
  | announce at_ => exact ⟨by rw [at_] at hsh; exact hsh, hco⟩
  | enter at_ free => exact ⟨by rw [hsh, free]; simp, by simp [CollectorPoint.inPass]⟩
  | survey at_ => exact ⟨hsh, by rw [at_] at hco; exact hco⟩
  | poll at_ result =>
    have hl : s.lock = some .collector := hco.1 (by rw [at_]; rfl)
    exact ⟨hsh, by simp [hl]⟩
  | record at_ recorded =>
    have hl : s.lock = some .collector := hco.1 (by rw [at_]; rfl)
    exact ⟨hsh, by simp [hl]⟩
  | conclude at_ ended =>
    have hl : s.lock = some .collector := hco.1 (by rw [at_]; rfl)
    exact ⟨hsh, by simp [hl]⟩
  | inform at_ => exact ⟨hsh, by rw [at_] at hco; exact hco⟩
  | leave at_ =>
    have hl : s.lock = some .collector := hco.1 (by rw [at_]; rfl)
    exact ⟨by rw [hsh, hl]; simp, by simp [CollectorPoint.inPass]⟩

/-- Every run keeps the lock where the points say. -/
theorem of_run (h : Run A es s es' s') (h0 : Disciplined s) : Disciplined s' :=
  h.invariant (P := fun _ s => Disciplined s) (fun hp _ hs => hp.step hs) h0

end Disciplined

/-! ## The table -/

/-- The table is well-formed, and a claim remembers a job that had not ended. -/
structure Sound (s : State) : Prop where
  wellFormed : s.table.WellFormed
  claim : ∀ c, s.shell.claim? = some c → c.state ≠ .done

namespace Sound

open JobTable

/-- A fresh session is sound. -/
theorem start : Sound {} := ⟨wellFormed_empty, nofun⟩

/-- What the shell changes stays sound. -/
theorem change {t : JobTable} {p : ShellPoint} (h : Sound s) (hc : s.shell.Changes s.table e t p) :
    Sound { s with table := t, shell := p } := by
  obtain ⟨hw, hcl⟩ := h
  revert hc hw hcl
  generalize s.table = t₀
  generalize s.shell = p₀
  intro hc hw hcl
  cases hc with
  | enlist added =>
    obtain ⟨rfl, -⟩ := Prod.mk.inj added
    exact ⟨hw.insert .., nofun⟩
  | finish finished =>
    obtain rfl := congrArg Prod.fst finished
    exact ⟨hw.markFinished .., by simp⟩
  | suspend tracked =>
    obtain rfl := congrArg Prod.fst tracked
    exact ⟨hw.trackStopped .., by simp⟩
  | giveUp f cause =>
    refine ⟨?_, nofun⟩
    simp only [Foreground.giveUp]
    split
    · rename_i id c hf
      exact hw.restore (hcl c (by simp [ShellPoint.claim?, hf])) id
    · exact hw
  | claim claimed =>
    obtain ⟨j, hj, rfl, rfl⟩ := claim?_some claimed
    refine ⟨hw.modify (fun _ => rfl) fun _ _ => rfl, ?_⟩
    rintro c ⟨⟩
    exact bne_iff_ne.1 (hw.tracked j ((find?_eq_some_iff hw).1 hj).1)
  | restore id c cause => exact ⟨hw.restore (hcl c rfl) id, nofun⟩
  | resume resumed =>
    obtain ⟨j, -, rfl, -⟩ := resume?_some resumed
    exact ⟨hw.modify (fun _ => rfl) fun _ _ => rfl, nofun⟩

/-- Every step keeps a session sound. -/
theorem step (h : Sound s) (hs : Step s e s') : Sound s' := by
  cases hs with
  | move moves =>
    refine ⟨h.wellFormed, fun c hc => ?_⟩
    rcases moves.claim? with he | he
    · exact h.claim c (he ▸ hc)
    · rw [he] at hc
      cases hc
  | change changes => exact h.change changes
  | lock at_ free => exact ⟨h.wellFormed, nofun⟩
  | unlock at_ =>
    refine ⟨h.wellFormed, fun c hc => h.claim c ?_⟩
    rw [at_]
    rw [ShellPoint.claim?_afterClaim] at hc
    exact hc
  | announce at_ => exact ⟨h.wellFormed, nofun⟩
  | record at_ recorded =>
    obtain rfl := congrArg Prod.fst recorded
    exact ⟨h.wellFormed.childStatus .., h.claim⟩
  | conclude at_ ended =>
    obtain rfl := congrArg Prod.fst ended
    exact ⟨h.wellFormed.markFinished .., h.claim⟩
  | enter | survey | poll | inform | leave => exact ⟨h.wellFormed, h.claim⟩

/-- Every run keeps a session sound. -/
theorem of_run (h : Run A es s es' s') (h0 : Sound s) : Sound s' :=
  h.invariant (P := fun _ s => Sound s) (fun hp _ hs => hp.step hs) h0

end Sound

end JobShell
