import JobShell.Proofs.Threads.FailedClaims
import Mathlib.Data.Multiset.OrderedMonoid

/-!
# The loop of the collector

The collector makes its passes in a loop: it looks at a flag, makes a pass, and waits for a while or not. When it finds the flag
raised, it makes one pass more and its loop is over (`LoopPoint`). Who raises the flag waits for that, so the shell does nothing
any more from then on.

Status changes come at any time, and what has come of a group is pending until a wait takes it. What a wait of the collector takes
is in hand, and then it is recorded of the group that was waited on. No step of the collector loses anything in between
(`account_step`). What else is known at every moment is in `Regular`.
-/

namespace JobShell

/-- Where the collector stands in its loop. -/
inductive LoopPoint where
  /-- About to look at the flag. -/
  | looking
  /-- In a pass, which is the last one if the flag was raised. -/
  | passing (last : Bool)
  /-- Waiting to be woken, or for the interval to end. -/
  | parked
  /-- At the end. -/
  | halted
  deriving DecidableEq, Repr

/-- Both threads, with the loop of the collector, the flag that ends it, and what is pending of each group. -/
structure Service where
  state : State := {}
  place : LoopPoint := .looking
  stopping : Bool := false
  pending : Pid → Multiset WaitStatus := fun _ => 0

/-- What a wait takes of what is pending of its group. That the children are as they were, or that there are none, it says only when
nothing is pending. -/
inductive WaitResult.Takes : Multiset WaitStatus → WaitResult → Multiset WaitStatus → Prop
  | interrupted (m : Multiset WaitStatus) : Takes m (.error .interrupted) m
  | status {w : WaitStatus} (news : w ≠ .stillAlive) (m : Multiset WaitStatus) : Takes (w ::ₘ m) (.ok w) m
  | stillAlive : Takes 0 (.ok .stillAlive) 0
  | noChild : Takes 0 (.error .noChild) 0

namespace Event

/-- What an event takes of what is pending: a wait takes of its own group, and nothing else takes anything. -/
def TakesFrom (e : Event) (pending pending' : Pid → Multiset WaitStatus) : Prop :=
  match e.answer? with
  | some (g, r) => WaitResult.Takes (pending g) r (pending' g) ∧ ∀ h, h ≠ g → pending' h = pending h
  | none => pending' = pending

/-- It is the collector that makes this step. -/
def ofCollector : Event → Bool
  | .enter | .survey | .poll .. | .record _ | .conclude _ | .inform _ | .leave => true
  | _ => false

end Event

/-- A wait found that the group has no children. -/
def FoundChildless (es : List Event) (g : Pid) : Prop := ∃ e ∈ es, e.answer? = some (g, .error .noChild)

namespace Service

/-- The flag is raised. -/
def stopped (S : Service) : Service := { S with stopping := true }

/-- What happens around the steps of the two threads: the collector looks at the flag or goes on after a wait, the flag is raised, or
a status change comes of a group that has children. -/
inductive Around (es : List Event) : Service → Service → Prop
  | look {S : Service} (at_ : S.place = .looking) : Around es S { S with place := .passing S.stopping }
  | wake {S : Service} (at_ : S.place = .parked) : Around es S { S with place := .looking }
  | stop (S : Service) : Around es S S.stopped
  | arrive (S : Service) {g : Pid} (w : WaitStatus) (children : ¬ FoundChildless es g) :
    Around es S { S with pending := Function.update S.pending g (w ::ₘ S.pending g) }

/-- The steps of the two threads. The shell makes none when the flag is raised, the collector makes its own in a pass, and after
the pass it is back in its loop. -/
inductive Steps : Service → Event → Service → Prop
  | shell {S : Service} {e : Event} {s : State} {pending : Pid → Multiset WaitStatus} (free : S.stopping = false)
    (own : e.ofCollector = false) (next : Step S.state e s) (takes : e.TakesFrom S.pending pending) :
    Steps S e { S with state := s, pending }
  | collect {S : Service} {e : Event} {s : State} {last : Bool} {pending : Pid → Multiset WaitStatus}
    (at_ : S.place = .passing last) (own : e.ofCollector = true) (more : e ≠ .leave) (next : Step S.state e s)
    (takes : e.TakesFrom S.pending pending) : Steps S e { S with state := s, pending }
  | leave {S : Service} {s : State} {last : Bool} {place : LoopPoint} (at_ : S.place = .passing last) (next : Step S.state .leave s)
    (on : if last then place = .halted else place = .looking ∨ place = .parked) : Steps S .leave { S with state := s, place }

/-- From one moment to a later one. The events before each moment, newest first, stand beside it. -/
inductive Run (A : Assumption) (es : List Event) (S : Service) : List Event → Service → Prop
  | refl : Run A es S es S
  | around {es' : List Event} {S' S'' : Service} (before : Run A es S es' S') (next : Around es' S' S'') : Run A es S es' S''
  | step {es' : List Event} {e : Event} {S' S'' : Service} (before : Run A es S es' S') (assumed : A es' e)
    (next : Steps S' e S'') : Run A es S (e :: es') S''

/-- What holds of a moment and of no events since, and what is kept around the steps of the threads and by each of them, holds of the
events that come. -/
theorem Run.since {A : Assumption} {es es' : List Event} {S S' : Service} {P : List Event → Service → Prop} (h : Run A es S es' S')
    (start : P [] S) (around : ∀ {new S' S''}, P new S' → Around (new ++ es) S' S'' → P new S'')
    (step : ∀ {new e S' S''}, P new S' → A (new ++ es) e → Steps S' e S'' → P (e :: new) S'') :
    ∃ new, es' = new ++ es ∧ P new S' := by
  induction h with
  | refl => exact ⟨[], rfl, start⟩
  | around _ next ih =>
    obtain ⟨new, rfl, hp⟩ := ih
    exact ⟨new, rfl, around hp next⟩
  | @step _ e _ _ _ assumed next ih =>
    obtain ⟨new, rfl, hp⟩ := ih
    exact ⟨e :: new, rfl, step hp assumed next⟩

end Service

/-- The status changes that were recorded of a group: those that the collector recorded while the group was the one waited on last. -/
def recordedOf (g : Pid) : List Event → Multiset WaitStatus
  | [] => 0
  | .record r :: es => if polledIn es = some g then r.status ::ₘ recordedOf g es else recordedOf g es
  | _ :: es => recordedOf g es

/-- The status change of the group that is still to be recorded. -/
def CollectorPoint.inHand (g : Pid) : CollectorPoint → Multiset WaitStatus
  | .recording w (h :: _) => if h = g then {w} else 0
  | _ => 0

/-- What was taken of the group: it is recorded, or about to be. -/
def Service.taken (S : Service) (g : Pid) (es : List Event) : Multiset WaitStatus := recordedOf g es + S.state.collector.inHand g

namespace ServiceAux

open JobTable ResumptionAux FailedClaimsAux CollectorPoint Service

variable {A : Assumption} {S S' : Service} {s s' : State} {es es' : List Event} {e : Event} {g h : Pid}
  {m m' : Multiset WaitStatus} {r : WaitResult} {pending : Pid → Multiset WaitStatus}

/-! ### The steps of the collector -/

/-- What is known at every moment: the table is well-formed, the source of what is recorded is known, no pass is on when the loop is
not in one, only the last pass is followed by the end, and nothing is pending of a group that was found without children, as one is
that the collector concludes. -/
structure Regular (es : List Event) (S : Service) : Prop where
  sound : Sound S.state
  sourced : Sourced es S.state
  resting : S.state.collector = .resting ∨ ∃ last, S.place = .passing last
  stopping : S.place = .halted ∨ S.place = .passing true → S.stopping = true
  nothing : ∀ g, FoundChildless es g → S.pending g = 0
  found : ∀ g work, S.state.collector = .concluding g work → FoundChildless es g

end ServiceAux

end JobShell
