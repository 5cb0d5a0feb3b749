import JobShell.Proofs.Sessions.Operations

/-!
# What the processes of a launch hold

A process holds descriptors, and each stands for something: for what it stood for before the launch, or for one end of a pipe
(`Endpoint`). A `Wiring` is kept beside a system and says what the shell holds, which pipes were made, what the shell closed, and for
each child what it held when it was made and what it holds when it becomes its program (`System.wired`). Nothing of it shows in the
answers of the system.

Here is what single steps do to it: the steps of a child (`steps_held`) and the release of pipes (`Holds.release`).
-/

namespace JobShell

variable {σ : Type}

/-- What an open descriptor stands for: what it stood for before the launch, or an end of a pipe, numbered as the pipes are made. -/
inductive Endpoint where
  | inherited (d : Descriptor)
  | reading (i : Nat)
  | writing (i : Nat)
  deriving DecidableEq, Repr

/-- What each descriptor of a process stands for, if it is open. -/
abbrev Holding := Descriptor → Option Endpoint

namespace Holding

/-- These descriptors are open, and nothing is known of what they stand for. -/
def inheriting (ds : List Descriptor) : Holding := fun d => if d ∈ ds then some (.inherited d) else none

/-- One descriptor comes to stand for what another one does; one that is not open cannot be duplicated. -/
def duplicate (h : Holding) (source target : Descriptor) : Holding :=
  match h source with
  | some e => Function.update h target (some e)
  | none => h

/-- A descriptor is closed. -/
def close (h : Holding) (d : Descriptor) : Holding := Function.update h d none

/-- What a child holds after a step; the steps that are not about descriptors leave it. -/
def after (h : Holding) : ChildStep → Holding
  | .duplicate source target => h.duplicate source target
  | .close d => h.close d
  | .joinGroup _ | .claimTerminal | .resetSignals _ | .execute .. => h

end Holding

/-- A child: what it was given by the shell when it was made, and what it holds when it becomes its program. -/
structure Child where
  pid : Pid
  given : Holding
  holds : Holding

/-- What the shell holds, the pipes that were made and the descriptors that the shell closed, both in order, and the children. -/
structure Wiring where
  held : Holding
  pipes : List Pipe := []
  closed : List Descriptor := []
  children : List Child := []

namespace Wiring

/-- The ends of all pipes. -/
def ends (w : Wiring) : List Descriptor := w.pipes.flatMap Pipe.ends

/-- A pipe is made. -/
def make (w : Wiring) (q : Pipe) : Wiring :=
  { w with
    held := Function.update (Function.update w.held q.read (some (.reading w.pipes.length))) q.write (some (.writing w.pipes.length))
    pipes := w.pipes ++ [q] }

/-- The shell closes a descriptor. -/
def close (w : Wiring) (d : Descriptor) : Wiring := { w with held := w.held.close d, closed := w.closed ++ [d] }

/-- A child is made: it is given all that the shell holds, and takes the steps that were planned for it. -/
def fork (w : Wiring) (plan : ChildPlan) (pid : Pid) : Wiring :=
  { w with children := w.children ++ [⟨pid, w.held, plan.steps.foldl Holding.after w.held⟩] }

end Wiring

/-- The system with its wiring. -/
def System.wired (S : System σ) : System (σ × Wiring) :=
  { S.beside Wiring with
    makePipe := noted S.makePipe fun
      | .ok (read, write), w => w.make ⟨read, write⟩
      | .error _, w => w
    closeDescriptor := fun d w => (S.closeDescriptor d w.1, w.2.close d)
    fork := fun plan => noted (S.fork plan) fun
      | .ok pid, w => w.fork plan pid
      | .error _, w => w }

/-! ## The steps of a child -/

namespace Holding

variable {h : Holding} {d source target : Descriptor}

/-- A descriptor that was duplicated is open at its target too, and where it was not, the target is as it was. -/
theorem duplicate_target : h.duplicate source target target = (h source).or (h target) := by
  rw [duplicate]
  cases h source with
  | none => rfl
  | some e => exact Function.update_self ..

/-- Duplication changes no descriptor but its target. -/
theorem duplicate_of_ne (hd : d ≠ target) : h.duplicate source target d = h d := by
  rw [duplicate]
  cases h source with
  | none => rfl
  | some e => exact Function.update_of_ne hd ..

/-- Of descriptors that are closed one after the other none stays open, and every other one is as it was. -/
theorem foldl_close (ds : List Descriptor) : ds.foldl close h d = if d ∈ ds then none else h d := by
  induction ds generalizing h with
  | nil => rfl
  | cons a rest ih =>
    rw [List.foldl_cons, ih]
    by_cases hr : d ∈ rest
    · rw [if_pos hr, if_pos (List.mem_cons_of_mem a hr)]
    · by_cases ha : d = a
      · rw [if_neg hr, ha, if_pos List.mem_cons_self]
        exact Function.update_self ..
      · rw [if_neg hr, if_neg (by simp [ha, hr])]
        exact Function.update_of_ne ha ..

end Holding

/-- A child reads at 0 from its input and writes at 1 to its output, where it has them, and of the others those are open that were not
to be closed. -/
theorem ChildPlan.steps_held (plan : ChildPlan) (h : Holding) (hclose : ∀ d ∈ plan.close, 2 < d) (hout : ∀ d ∈ plan.output, 2 < d) :
    plan.steps.foldl Holding.after h 0 = (plan.input.bind h).or (h 0) ∧
    plan.steps.foldl Holding.after h 1 = (plan.output.bind h).or (h 1) ∧
    ∀ d, 1 < d → plan.steps.foldl Holding.after h d = if d ∈ plan.close then none else h d := by
  have joined : ∀ h : Holding, (if plan.claimsTerminal then [ChildStep.claimTerminal] else []).foldl Holding.after h = h := by
    intro h
    cases plan.claimsTerminal <;> rfl
  have closing : ∀ (ds : List Descriptor) (h : Holding), (ds.map ChildStep.close).foldl Holding.after h = ds.foldl Holding.close h := by
    intro ds h
    rw [List.foldl_map]
    rfl
  have connected : ∀ (source : Option Descriptor) (target : Descriptor) (h : Holding),
      ((source.map fun d => ChildStep.duplicate d target).toList.foldl Holding.after h target = (source.bind h).or (h target)) ∧
      ∀ d ≠ target, (source.map fun d => ChildStep.duplicate d target).toList.foldl Holding.after h d = h d := by
    intro source target h
    cases source with
    | none => exact ⟨rfl, fun _ _ => rfl⟩
    | some source => exact ⟨Holding.duplicate_target, fun d hd => Holding.duplicate_of_ne hd⟩
  -- What the child holds when it has its input, and then its output, but has not closed anything.
  obtain ⟨input, others⟩ := connected plan.input 0 h
  generalize hread : (plan.input.map fun d => ChildStep.duplicate d 0).toList.foldl Holding.after h = reading at input others
  obtain ⟨output, others'⟩ := connected plan.output 1 reading
  generalize hwrite : (plan.output.map fun d => ChildStep.duplicate d 1).toList.foldl Holding.after reading = writing at output others'
  have taken : ∀ d, plan.steps.foldl Holding.after h d = if d ∈ plan.close then none else writing d := by
    intro d
    rw [steps]
    simp only [List.foldl_append, List.foldl_cons, List.foldl_nil, joined, closing, Holding.after, hread, hwrite]
    exact Holding.foldl_close plan.close
  have kept : ∀ d, d < 2 → d ∉ plan.close := fun d hd hm => Nat.lt_asymm hd (hclose d hm)
  refine ⟨?_, ?_, fun d hd => ?_⟩
  · rw [taken, if_neg (kept 0 (by decide)), others' 0 (by decide), input]
  · have same : plan.output.bind reading = plan.output.bind h := by
      cases hs : plan.output with
      | none => rfl
      | some d => exact others d (Nat.ne_of_gt (Nat.zero_lt_of_lt (hout d hs)))
    rw [taken, if_neg (kept 1 (by decide)), output, same, others 1 (by decide)]
  · rw [taken, others' d (Nat.ne_of_gt hd), others d (Nat.ne_of_gt (Nat.zero_lt_of_lt hd))]

/-! ## The release of pipes -/

namespace Wiring

variable {w : Wiring} {before : Holding} {k : Nat}

/-- Descriptors that are closed one after the other. -/
theorem foldl_close (ds : List Descriptor) :
    ds.foldl close w = { w with held := fun d => if d ∈ ds then none else w.held d, closed := w.closed ++ ds } := by
  have held : ∀ w : Wiring, ds.foldl close w = { w with held := ds.foldl Holding.close w.held, closed := w.closed ++ ds } := by
    induction ds with
    | nil => intro w; rw [List.append_nil]; rfl
    | cons d rest ih =>
      intro w
      rw [List.foldl_cons, ih, close, List.foldl_cons, List.append_assoc]
      rfl
  rw [held]
  congr 1
  exact funext fun d => Holding.foldl_close ds

/-- The descriptors of all pipes are different, and none is one of the standard streams. -/
structure Distinct (w : Wiring) : Prop where
  nodup : w.ends.Nodup
  above : ∀ d ∈ w.ends, 2 < d

/-- Where the pipes are different, those made up to some moment were. -/
theorem Distinct.of_prefix {w' : Wiring} (h : w'.Distinct) (made : w.pipes <+: w'.pipes) : w.Distinct := by
  obtain ⟨later, he⟩ := made
  have ends_eq : w'.ends = w.ends ++ later.flatMap Pipe.ends := by rw [ends, ← he, List.flatMap_append, ends]
  exact ⟨(List.nodup_append.1 (ends_eq ▸ h.nodup)).1, fun d hd => h.above d (ends_eq ▸ List.mem_append_left _ hd)⟩

/-- The shell has released the first `k` pipes: it holds both ends of every other one, and all else that it held before. -/
structure Holds (before : Holding) (k : Nat) (w : Wiring) : Prop where
  kept : ∀ i q, k ≤ i → w.pipes[i]? = some q → w.held q.read = some (.reading i) ∧ w.held q.write = some (.writing i)
  released : ∀ d ∈ (w.pipes.take k).flatMap Pipe.ends, w.held d = none
  others : ∀ d ∉ w.ends, w.held d = before d
  closed : w.closed = (w.pipes.take k).flatMap Pipe.ends

/-- The ends of a pipe are among the ends of all. -/
theorem mem_ends {i : Nat} {q : Pipe} {d : Descriptor} (hq : w.pipes[i]? = some q) (hd : d ∈ q.ends) : d ∈ w.ends :=
  List.mem_flatMap.2 ⟨q, List.mem_of_getElem? hq, hd⟩

/-- The ends of a pipe are no ends of the pipes before it. -/
theorem Distinct.not_mem_take (h : w.Distinct) {i : Nat} {q : Pipe} {d : Descriptor} (hk : k ≤ i) (hq : w.pipes[i]? = some q)
    (hd : d ∈ q.ends) : d ∉ (w.pipes.take k).flatMap Pipe.ends := by
  have nodup := h.nodup
  rw [ends, ← List.take_append_drop k w.pipes, List.flatMap_append] at nodup
  have later : d ∈ (w.pipes.drop k).flatMap Pipe.ends := by
    refine List.mem_flatMap.2 ⟨q, List.mem_of_getElem? (i := i - k) ?_, hd⟩
    rw [List.getElem?_drop, Nat.add_sub_cancel' hk, hq]
  exact fun earlier => List.disjoint_of_nodup_append nodup earlier later

/-- The next pipes are released when both their ends are closed. -/
theorem Holds.release (h : w.Holds before k) (distinct : w.Distinct) (m : Nat) :
    ((((w.pipes.drop k).take m).flatMap Pipe.ends).foldl close w).Holds before (k + m) := by
  rw [foldl_close]
  have parts : (w.pipes.take (k + m)).flatMap Pipe.ends =
      (w.pipes.take k).flatMap Pipe.ends ++ ((w.pipes.drop k).take m).flatMap Pipe.ends := by
    rw [List.take_add, List.flatMap_append]
  refine ⟨?_, ?_, ?_, ?_⟩
  · intro i q hi hq
    have open_ : ∀ d ∈ q.ends, d ∉ ((w.pipes.drop k).take m).flatMap Pipe.ends := fun d hd hm =>
      distinct.not_mem_take hi hq hd (parts ▸ List.mem_append_right _ hm)
    obtain ⟨read, write⟩ := h.kept i q (by omega) hq
    dsimp only
    rw [if_neg (open_ q.read (by simp [Pipe.ends])), if_neg (open_ q.write (by simp [Pipe.ends]))]
    exact ⟨read, write⟩
  · intro d hd
    dsimp only at hd ⊢
    split
    · rfl
    · rename_i hm
      rw [parts] at hd
      exact h.released d ((List.mem_append.1 hd).resolve_right hm)
  · intro d hd
    have open_ : d ∉ ((w.pipes.drop k).take m).flatMap Pipe.ends := fun hm => by
      obtain ⟨q, hq, hdq⟩ := List.mem_flatMap.1 hm
      exact hd (List.mem_flatMap.2 ⟨q, List.mem_of_mem_drop (List.mem_of_mem_take hq), hdq⟩)
    dsimp only
    rw [if_neg open_]
    exact h.others d hd
  · dsimp only
    rw [h.closed, parts]

/-- All pipes are released when the ends of those that are left are closed. -/
theorem Holds.releaseAll (h : w.Holds before k) (distinct : w.Distinct) (hk : k ≤ w.pipes.length) :
    (((w.pipes.drop k).flatMap Pipe.ends).foldl close w).Holds before w.pipes.length := by
  have released := h.release distinct (w.pipes.length - k)
  rwa [List.take_of_length_le (Nat.le_of_eq (List.length_drop ..)), Nat.add_sub_cancel' hk] at released

/-- Where all pipes are released, none is held any more. -/
theorem Holds.held_eq (h : w.Holds before w.pipes.length) (d : Descriptor) : w.held d = if d ∈ w.ends then none else before d := by
  split
  · rename_i hd
    exact h.released d (by rwa [List.take_length])
  · rename_i hd
    exact h.others d hd

/-- A pipe more is made. -/
theorem Holds.make (h : w.Holds before 0) {q : Pipe} (distinct : (w.make q).Distinct) : (w.make q).Holds before 0 := by
  have nodup : (w.ends ++ q.ends).Nodup := by
    have := distinct.nodup
    rwa [ends, Wiring.make, List.flatMap_append, List.flatMap_singleton] at this
  have different : q.read ≠ q.write := by
    have := (List.nodup_append.1 nodup).2.1
    simpa [Pipe.ends] using this
  have elsewhere : ∀ d ∉ q.ends, (w.make q).held d = w.held d := by
    intro d hd
    obtain ⟨hr, hw⟩ : d ≠ q.read ∧ d ≠ q.write := by simpa [Pipe.ends] using hd
    rw [Wiring.make]
    dsimp only
    rw [Function.update_of_ne hw, Function.update_of_ne hr]
  refine ⟨?_, nofun, ?_, h.closed⟩
  · intro i r _ hr
    by_cases hi : i < w.pipes.length
    · have earlier : w.pipes[i]? = some r := by rwa [Wiring.make, List.getElem?_append_left hi] at hr
      have apart : ∀ d ∈ r.ends, d ∉ q.ends := fun d hd => List.disjoint_of_nodup_append nodup (mem_ends earlier hd)
      rw [elsewhere _ (apart r.read (by simp [Pipe.ends])), elsewhere _ (apart r.write (by simp [Pipe.ends]))]
      exact h.kept i r (Nat.zero_le i) earlier
    · obtain ⟨rfl, rfl⟩ : q = r ∧ i = w.pipes.length := by
        rw [Wiring.make, List.getElem?_append_right (Nat.le_of_not_lt hi), List.getElem?_singleton] at hr
        split at hr
        · exact ⟨Option.some.inj hr, by omega⟩
        · cases hr
      rw [Wiring.make]
      dsimp only
      rw [Function.update_of_ne different, Function.update_self, Function.update_self]
      exact ⟨rfl, rfl⟩
  · intro d hd
    have old : d ∉ w.ends ++ q.ends := by rwa [ends, Wiring.make, List.flatMap_append, List.flatMap_singleton] at hd
    obtain ⟨hold, hnew⟩ : d ∉ w.ends ∧ d ∉ q.ends := by simpa using old
    rw [elsewhere d hnew]
    exact h.others d hold

end Wiring

end JobShell
