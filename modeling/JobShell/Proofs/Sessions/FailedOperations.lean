import JobShell.Proofs.JobTable.Claims
import JobShell.Proofs.Sessions.Tables

/-!
# Operations on jobs that fail

An operation that finds no job, or whose signal fails, leaves the table and the notices as they were (`Unrecorded`). Where the job
was to be continued in the foreground, the terminal was given to its group and taken back; otherwise nothing was asked of it.

To continue a job in the background or to send it a signal changes nothing before it can fail. To continue it in the foreground
claims it first, so that the claim has to be given back: that this leaves the job as it was rests on its not being waited for
between two operations (`Tidy`).
-/

namespace JobShell

/-- The second session has the table and the notices of the first, and these requests to the terminal more. -/
structure Session.Unrecorded {σ : Type} (s s' : Session σ) (requests : List TerminalEvent) : Prop where
  table : s'.table = s.table
  notices : s'.notices = s.notices
  terminal : s'.terminal = s.terminal ++ requests

namespace FailedOperationsAux

open Act JobTable QuietAux Session

variable {σ : Type} {S : System σ} {id i : JobId} {signal : Signal} {s : Session σ} {j : Job} {cause : Errno}

/-- Nothing was done. -/
theorem unrecorded_refl (s : Session σ) : Unrecorded s s [] := ⟨rfl, rfl, (List.append_nil _).symm⟩

/-- To continue a job in the foreground fails for want of a job only where there is none, and otherwise first claims the job and
gives its group the terminal. -/
theorem foreground_cases (S : System σ) (id : JobId) (s : Session σ) :
    bringToForeground S id s = (.error (.notFound id), s) ∨
    ∃ j s₁, s.table.find? id = some j ∧
      Unrecorded { s with table := s.table.modify id Job.claimed } s₁ [.giveTo j.pgid] ∧
      ((∃ cause, bringToForeground S id s =
          (.error (.signal id cause), (restoreJob id j.claim (reclaimTerminal S s₁).2).2)) ∨
        ∀ i cause, (bringToForeground S id s).1 ≠ .error (.notFound i) ∧ (bringToForeground S id s).1 ≠ .error (.signal i cause)) := by
  rw [bringToForeground, bind_apply, get_apply]
  dsimp only
  cases hj : s.table.find? id with
  | none =>
    left
    rw [claim?, hj]
    rfl
  | some j =>
    right
    rw [claim?_of_find hj]
    dsimp only
    rw [bind_apply, modify_apply, bind_apply, bind_apply]
    have given : Unrecorded { s with table := s.table.modify id Job.claimed }
        (ask (S.signalGroup j.claim.group.pgid .cont)
          (giveTerminal S j.claim.group.pgid { s with table := s.table.modify id Job.claimed }).2).2 [.giveTo j.pgid] :=
      ⟨rfl, rfl, rfl⟩
    generalize ask (S.signalGroup j.claim.group.pgid .cont) _ = q at given ⊢
    obtain ⟨r, s₁⟩ := q
    refine ⟨j, s₁, rfl, given, ?_⟩
    cases r with
    | error cause => exact Or.inl ⟨cause, rfl⟩
    | ok =>
      right
      intro i cause
      dsimp only
      rw [bind_apply, bind_apply]
      generalize awaitGroup S j.claim.group s₁ = q
      obtain ⟨r, s₂⟩ := q
      rcases r with cause | (status | ⟨signal, live⟩) <;> constructor <;> intro h <;> cases h

/-- Where there is no such job, nothing was done. -/
theorem unrecorded_of_notFound (h : (bringToForeground S id s).1 = .error (.notFound i)) :
    Unrecorded s (bringToForeground S id s).2 [] := by
  rcases foreground_cases S id s with he | ⟨j, s₁, -, -, ⟨cause, he⟩ | hne⟩
  · rw [he]
    exact unrecorded_refl s
  · rw [he] at h
    cases h
  · exact absurd h (hne i .invalid).1

/-- Where the signal fails, the job is put back as it was, and the terminal taken back. -/
theorem unrecorded_of_signal (ht : Tidy none s.table) (h : (bringToForeground S id s).1 = .error (.signal i cause)) :
    ∃ j, s.table.find? id = some j ∧ Unrecorded s (bringToForeground S id s).2 [.giveTo j.pgid, .reclaim] := by
  rcases foreground_cases S id s with he | ⟨j, s₁, hj, given, ⟨cause, he⟩ | hne⟩
  · rw [he] at h
    cases h
  · have hfree : j.waited = false := by
      cases hw : j.waited with
      | false => rfl
      | true => cases ht.waited j ((find?_eq_some_iff ht.wellFormed).1 hj).1 hw
    refine ⟨j, hj, ?_⟩
    rw [he]
    refine ⟨?_, given.notices, ?_⟩
    · show s₁.table.restore id j.claim = s.table
      rw [given.table]
      exact restore_claimed ht.wellFormed hj hfree
    · show s₁.terminal ++ [.reclaim] = _
      rw [given.terminal, List.append_assoc]
      rfl
  · exact absurd h (hne i cause).2

/-- To ask the system is to do nothing else. -/
theorem unrecorded_ask {α : Type} (request : σ → α × σ) (s : Session σ) : Unrecorded s (ask request s).2 [] :=
  ⟨rfl, rfl, (List.append_nil _).symm⟩

/-- Where a job cannot be continued in the background, nothing was done. -/
theorem unrecorded_of_background {e : JobError} (h : (sendToBackground S id s).1 = .error e) :
    Unrecorded s (sendToBackground S id s).2 [] := by
  rw [sendToBackground, bind_apply, get_apply] at h ⊢
  dsimp only at h ⊢
  cases hj : s.table.find? id with
  | none => exact unrecorded_refl s
  | some j =>
    rw [hj] at h
    dsimp only at h ⊢
    rw [bind_apply] at h ⊢
    have asked := unrecorded_ask (S.signalGroup j.pgid .cont) s
    generalize ask (S.signalGroup j.pgid .cont) s = q at h asked ⊢
    obtain ⟨r, s₁⟩ := q
    cases r with
    | error cause => exact asked
    | ok =>
      dsimp only at h ⊢
      rw [bind_apply, get_apply] at h ⊢
      dsimp only at h ⊢
      cases hr : s₁.table.resume? id with
      | none => exact asked
      | some resumed =>
        rw [hr] at h
        cases h

/-- Where a job cannot be sent a signal, nothing was done. -/
theorem unrecorded_of_kill {e : JobError} (h : (killJob S id signal s).1 = .error e) :
    Unrecorded s (killJob S id signal s).2 [] := by
  rw [killJob, bind_apply, get_apply] at h ⊢
  dsimp only at h ⊢
  cases hj : s.table.find? id with
  | none => exact unrecorded_refl s
  | some j =>
    rw [hj] at h
    dsimp only at h ⊢
    rw [bind_apply] at h ⊢
    have asked := unrecorded_ask (S.signalGroup j.pgid signal) s
    generalize ask (S.signalGroup j.pgid signal) s = q at h asked ⊢
    obtain ⟨r, s₁⟩ := q
    cases r with
    | error cause => exact asked
    | ok =>
      dsimp only at h
      split at h <;> cases h

end FailedOperationsAux

end JobShell
