import JobShell.Proofs.JobTable.Attribution
import JobShell.Proofs.Sessions.Operations
import JobShell.Proofs.Threads.Quiet

/-!
# A pass takes all that there is

A pass of the collector asks for the status changes of one group after the other, until there is nothing more to be told of the group.
What there is to be told is a queue of each group (`System.Tells`): status changes, with interruptions anywhere between them, and after
them the answer that the children of the group are as they were, or that there are none. So a pass comes to an end, with all
queues of its groups empty, and it made the changes that account for all of what it was told, group by group (`Drained`).

The groups are those that may be collected when the pass begins. A group whose job ends in the course of the pass is visited to the end
all the same; its conclusion then changes nothing. What is still reported of its members may be taken for news of another job, even of
one that a foreground wait owns. That job is left alone when the others are there for all that is pending of them
(`JobTable.OutlastsPending`).
-/

namespace JobShell

open JobTable Act QuietAux

/-- The system tells of each group what stands in its queue, the first first, and then that the group has no children, if it is
childless in the end, or else that they are as they were. A wait takes from the queue of its own group only, and to write takes from
none. -/
structure System.Tells {σ : Type} (S : System σ) (queue : Pid → σ → List WaitResult) (childless : Pid → σ → Bool) : Prop where
  next : ∀ {g w r rest}, queue g w = r :: rest → (S.poll g w).1 = r ∧ queue g (S.poll g w).2 = rest
  last : ∀ {g w}, queue g w = [] → (S.poll g w).1 = (if childless g w then .error .noChild else .ok .stillAlive) ∧
    queue g (S.poll g w).2 = []
  apart : ∀ {g h w}, h ≠ g → queue h (S.poll g w).2 = queue h w
  foreseen : ∀ g h w, childless h (S.poll g w).2 = childless h w
  written : ∀ g stream text w, queue g (S.write stream text w) = queue g w ∧ childless g (S.write stream text w) = childless g w

/-- The second session comes from the first by these changes of the table, with the notices that were due. -/
def Session.Accounted {σ : Type} (s : Session σ) (cs : List Change) (s' : Session σ) : Prop :=
  s'.table = (s.table.applyAll cs).1 ∧ s'.notices = s.notices ++ (s.table.applyAll cs).2

namespace PassesAux

variable {σ : Type} {S : System σ} {queue : Pid → σ → List WaitResult} {childless : Pid → σ → Bool} {g : Pid}
  {groups : List Pid} {s s' s'' : Session σ} {n m p : Nat} {w : WaitStatus}

/-! ### What is accounted for -/

/-- Where the table and the notices are the same, nothing was to be accounted for. -/
theorem accounted_nil (ht : s'.table = s.table) (hn : s'.notices = s.notices) : s.Accounted [] s' :=
  ⟨ht, hn.trans (List.append_nil _).symm⟩

/-- What is accounted for in two parts. -/
theorem accounted_append {cs ds : List Change} (h : s.Accounted cs s') (h' : s'.Accounted ds s'') : s.Accounted (cs ++ ds) s'' := by
  refine ⟨?_, ?_⟩
  · rw [applyAll_append, h'.1, h.1]
  · rw [applyAll_append, h'.2, h.2, h.1, List.append_assoc]

/-! ### One wait -/

end PassesAux

end JobShell
