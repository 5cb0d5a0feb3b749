import JobShell.Proofs.Sessions.Frames

/-!
# What actions do to the account

Most of what the shell does is quiet: it touches neither the job table nor the notices given so far (`Act.Quiet`). The actions that
are not quiet are a few, and what they do to the two is stated here once.
-/

namespace JobShell

/-- The action touches neither the table nor the notices. -/
def Act.Quiet {σ α : Type} (a : Act σ α) : Prop := ∀ s, (a s).2.table = s.table ∧ (a s).2.notices = s.notices

namespace QuietAux

open Act

variable {σ α β : Type} {a : Act σ α} {f : α → Act σ β}

/-- To give a value is quiet. -/
theorem quiet_pure (x : α) : Quiet (pure x : Act σ α) := fun _ => ⟨rfl, rfl⟩

/-- Two quiet actions are quiet. -/
theorem quiet_bind (ha : Quiet a) (hf : ∀ x, Quiet (f x)) : Quiet (a >>= f) := by
  intro s
  rw [bind_apply]
  exact ⟨(hf _ _).1.trans (ha s).1, (hf _ _).2.trans (ha s).2⟩

/-- To ask the system is quiet. -/
theorem quiet_ask (request : σ → α × σ) : Quiet (ask request) := fun _ => ⟨rfl, rfl⟩

/-- To look at the system is quiet. -/
theorem quiet_look (view : σ → α) : Quiet (look view) := fun _ => ⟨rfl, rfl⟩

/-- To tell the system is quiet. -/
theorem quiet_tell (change : σ → σ) : Quiet (tell change) := fun _ => ⟨rfl, rfl⟩

/-- To read the session is quiet. -/
theorem quiet_get : Quiet (get : Act σ (Session σ)) := fun _ => ⟨rfl, rfl⟩

/-- To write is quiet. -/
theorem quiet_write (S : System σ) (stream : Stream) (text : String) : Quiet (write S stream text) := by
  rw [write]
  split
  · exact quiet_pure ()
  · exact quiet_tell _

/-- To give the terminal away is quiet. -/
theorem quiet_giveTerminal (S : System σ) (pgid : Pid) : Quiet (giveTerminal S pgid) := fun _ => ⟨rfl, rfl⟩

/-- To take the terminal back is quiet. -/
theorem quiet_reclaimTerminal (S : System σ) : Quiet (reclaimTerminal S) := fun _ => ⟨rfl, rfl⟩

/-- A notice is added to the ones before. -/
theorem announce_apply (S : System σ) (n : Notice) (s : Session σ) :
    (announce S n s).2.table = s.table ∧ (announce S n s).2.notices = s.notices ++ [n] := by
  rw [announce, bind_apply]
  have quiet : Quiet (get >>= fun s => if s.printsNotices then write S .out (n.text ++ "\n") else pure () : Act σ Unit) := by
    refine quiet_bind quiet_get fun s => ?_
    split
    · exact quiet_write S _ _
    · exact quiet_pure ()
  exact quiet _

/-- A change of the table is made, and the notice that is due is given. -/
theorem changeTable_apply (S : System σ) (change : JobTable → JobTable × Option Notice) (s : Session σ) :
    (changeTable S change s).2.table = (change s.table).1 ∧
    (changeTable S change s).2.notices = s.notices ++ (change s.table).2.toList := by
  rw [changeTable, bind_apply, get_apply]
  dsimp only
  obtain ⟨t, n⟩ := change s.table
  cases n with
  | none => exact ⟨rfl, (List.append_nil _).symm⟩
  | some n => exact announce_apply S n { s with table := t }

/-- A stop is recorded, and the notice that is due is given. -/
theorem trackStopped_apply (S : System σ) (pgid : Pid) (command : String) (live : Nat) (members : List Pid) (s : Session σ) :
    (trackStopped S pgid command live members s).2.table = (s.table.trackStopped pgid command live members).1 ∧
    (trackStopped S pgid command live members s).2.notices =
      s.notices ++ (s.table.trackStopped pgid command live members).2.2.toList := by
  rw [Act.trackStopped, bind_apply, get_apply]
  dsimp only
  obtain ⟨t, id, n⟩ := s.table.trackStopped pgid command live members
  cases n with
  | none => exact ⟨rfl, (List.append_nil _).symm⟩
  | some n => exact announce_apply S n { s with table := t }

/-! ## Launches and reports -/

/-- To be quiet is to stay within a frame: quiet is whatever touches neither the terminal nor the job table, and more. -/
theorem frame_quiet (S : System σ) : LaunchFrame S fun s s' => s'.table = s.table ∧ s'.notices = s.notices where
  refl := fun _ => ⟨rfl, rfl⟩
  trans := fun h h' => ⟨h'.1.trans h.1, h'.2.trans h.2⟩
  environment := fun _ _ => ⟨rfl, rfl⟩
  asked := fun _ => ⟨rfl, rfl⟩
  forked := fun _ _ => ⟨rfl, rfl⟩
  placed := fun _ _ _ => ⟨rfl, rfl⟩

/-- A launch is quiet. -/
theorem quiet_launch (S : System σ) (shell : String) (p : Pipeline) : Quiet (launch S shell p) := (frame_quiet S).launch shell p

/-- To report an error is quiet. -/
theorem quiet_report (S : System σ) (x : Executor) (e : ExecError) : Quiet (report S x e) := quiet_write S _ _

/-- To change the working directory is quiet. -/
theorem quiet_cd (S : System σ) (args : List String) : Quiet (cd S args) := (frame_quiet S).cd args

end QuietAux

end JobShell
