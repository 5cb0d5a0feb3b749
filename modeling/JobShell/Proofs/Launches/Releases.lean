import JobShell.Proofs.Launches.Journal
import Mathlib.Data.List.Perm.Basic

/-!
# The release of pipes

A set of pipes keeps the books on their descriptors: where a stage reads, where it writes, and what is still to be closed. To release a
pipe strikes both its ends from the books and closes them; to release it again, or to release one that was never made, does nothing. So
what was closed and what is still in the books are together what was made (`PipeSet.release_perm`).

`descriptors_of_releases` follows a set from its first pipe until the shell lets go of it, with any releases in between.
-/

namespace JobShell

open Act JournalAux

variable {σ : Type} {S : System σ}

/-- Releases the pipes at these places, one after the other. -/
def Act.releasePipes (S : System σ) (p : PipeSet) (places : List Nat) : Act σ PipeSet := places.foldlM (releasePipe S) p

/-- The pipes, those at these places released. -/
def PipeSet.without (qs : List Pipe) (places : List Nat) : PipeSet :=
  { slots := qs.zipIdx.map fun e => if e.2 ∈ places then none else some e.1 }

/-- What a set of pipes tells after those at these places were released: it is as long as it was made, both ends of every other pipe are
open, in order, and these are what the stages before and after that pipe have. At any other place neither of them has anything, and the
first stage has nothing to read from. -/
structure PipeSet.Tells (p : PipeSet) (qs : List Pipe) (places : List Nat) : Prop where
  length : p.length = qs.length
  opened : p.openDescriptors = (qs.zipIdx.filter fun e => e.2 ∉ places).flatMap fun e => [e.1.read, e.1.write]
  joined : ∀ i q, qs[i]? = some q → i ∉ places → p.outputOf i = some q.write ∧ p.inputOf (i + 1) = some q.read
  apart : ∀ i, qs.length ≤ i ∨ i ∈ places → p.outputOf i = none ∧ p.inputOf (i + 1) = none
  first : p.inputOf 0 = none

namespace PipeSet

/-- Sets with the same slots are the same. -/
theorem eq_of_slots {p r : PipeSet} (h : ∀ i : Nat, p.slots[i]? = r.slots[i]?) : p = r := congrArg mk (List.ext_getElem? h)

/-- The slot at a place, where there is one. -/
theorem getElem?_without (qs : List Pipe) (places : List Nat) (i : Nat) :
    (without qs places).slots[i]? = qs[i]?.map fun q => if i ∈ places then none else some q := by
  rw [without, List.getElem?_map, List.getElem?_zipIdx, Option.map_map, Nat.zero_add]
  rfl

/-- A set from which nothing is released. -/
theorem keeping_zero (qs : List Pipe) : keeping qs 0 = without qs [] := by
  refine eq_of_slots fun i => ?_
  rw [getElem?_without, keeping, List.drop_zero, List.replicate_zero, List.nil_append, List.getElem?_map]
  rfl

/-- A pipe is there if it was made and is not released. -/
theorem pipe?_without (qs : List Pipe) (places : List Nat) (i : Nat) :
    (without qs places).pipe? i = if i ∈ places then none else qs[i]? := by
  rw [pipe?, getElem?_without]
  cases qs[i]? with
  | none => rw [ite_self]; rfl
  | some q => rfl

/-- The descriptors that are open are both ends of each pipe that is not released, in order. -/
theorem openDescriptors_without (qs : List Pipe) (places : List Nat) :
    (without qs places).openDescriptors = (qs.zipIdx.filter fun e => e.2 ∉ places).flatMap fun e => [e.1.read, e.1.write] := by
  rw [openDescriptors, without, List.flatMap_map]
  induction qs.zipIdx with
  | nil => rfl
  | cons e rest ih =>
    rw [List.flatMap_cons, ih]
    by_cases he : e.2 ∈ places
    · rw [if_pos he, List.filter_cons_of_neg (by simp [he])]
      rfl
    · rw [if_neg he, List.filter_cons_of_pos (by simp [he])]
      rfl

/-- A release changes no other pipe. -/
theorem release_without (qs : List Pipe) (places : List Nat) (i : Nat) :
    ((without qs places).release i).1 = without qs (places ++ [i]) := by
  refine eq_of_slots fun j => ?_
  rw [release, List.getElem?_set', getElem?_without, getElem?_without]
  by_cases hj : i = j
  · subst hj
    cases qs[i]? <;> simp
  · simp [hj, Ne.symm hj]

/-- A set with released pipes tells what it should. -/
theorem tells_without (qs : List Pipe) (places : List Nat) : (without qs places).Tells qs places where
  length := by rw [PipeSet.length, without, List.length_map, List.length_zipIdx]
  opened := openDescriptors_without qs places
  joined i q hq hi := by
    rw [outputOf, inputOf, pipe?_without, if_neg hi, hq]
    exact ⟨rfl, rfl⟩
  apart i hi := by
    have nothing : (without qs places).pipe? i = none := by
      rw [pipe?_without]
      rcases hi with beyond | released
      · rw [List.getElem?_eq_none beyond, ite_self]
      · exact if_pos released
    rw [outputOf, inputOf, nothing]
    exact ⟨rfl, rfl⟩
  first := rfl

/-- What a release closes and what it leaves open are together what was open. -/
theorem release_perm (p : PipeSet) (i : Nat) : ((p.release i).2 ++ (p.release i).1.openDescriptors).Perm p.openDescriptors := by
  by_cases hi : i < p.slots.length
  · let ends (slot : Option Pipe) : List Descriptor := (slot.map Pipe.ends).getD []
    have closed : (p.release i).2 = ends p.slots[i] := by
      rw [release, pipe?, List.getElem?_eq_getElem hi]
      rfl
    -- The slot is empty now, and an empty slot has no ends.
    have left : (p.release i).1.openDescriptors.Perm ((p.slots.eraseIdx i).flatMap ends) :=
      (List.set_perm_cons_eraseIdx hi none).flatMap_right ends
    rw [closed]
    calc ends p.slots[i] ++ (p.release i).1.openDescriptors
      _ |>.Perm (ends p.slots[i] ++ (p.slots.eraseIdx i).flatMap ends) := left.append_left _
      _ |>.Perm p.openDescriptors := (List.getElem_cons_eraseIdx_perm hi).flatMap_right ends
  · have beyond : p.slots.length ≤ i := Nat.le_of_not_lt hi
    rw [release, pipe?, List.getElem?_eq_none beyond, List.set_eq_of_length_le beyond]
    exact .refl _

end PipeSet

namespace ReleasesAux

/-- To release a pipe is to close some descriptors; these, and those that stay open, are together what was open. -/
theorem releasePipe_journaled (qs : List Pipe) (released : List Nat) (i : Nat) (s : Session (σ × List LaunchCall)) :
    ∃ closed s', releasePipe S.journaled (.without qs released) i s = (.without qs (released ++ [i]), s') ∧
      s'.world.2 = s.world.2 ++ closed.map .close ∧
      (closed ++ (PipeSet.without qs (released ++ [i])).openDescriptors).Perm (PipeSet.without qs released).openDescriptors := by
  let closed := ((PipeSet.without qs released).release i).2
  refine ⟨closed, (closeAll S.journaled closed s).2, ?_, closeAll_journaled closed s, ?_⟩
  · rw [← PipeSet.release_without]
    rfl
  · rw [← PipeSet.release_without]
    exact PipeSet.release_perm _ i

/-- The same is true of any releases, one after the other. -/
theorem releasePipes_journaled (qs : List Pipe) (released places : List Nat) (s : Session (σ × List LaunchCall)) :
    ∃ closed s', releasePipes S.journaled (.without qs released) places s = (.without qs (released ++ places), s') ∧
      s'.world.2 = s.world.2 ++ closed.map .close ∧
      (closed ++ (PipeSet.without qs (released ++ places)).openDescriptors).Perm (PipeSet.without qs released).openDescriptors := by
  induction places generalizing released s with
  | nil =>
    rw [List.append_nil]
    exact ⟨[], s, rfl, (List.append_nil _).symm, .refl _⟩
  | cons i rest ih =>
    obtain ⟨closed, s₁, first, entered, struck⟩ := releasePipe_journaled (S := S) qs released i s
    obtain ⟨closed', s', later, entered', struck'⟩ := ih (released ++ [i]) s₁
    rw [List.append_assoc, List.singleton_append] at later struck'
    refine ⟨closed ++ closed', s', ?_, ?_, ?_⟩
    · rw [releasePipes, List.foldlM_cons, bind_apply, first]
      exact later
    · rw [entered', entered, List.map_append, List.append_assoc]
    · rw [List.append_assoc]
      exact (struck'.append_left closed).trans struck

end ReleasesAux

open ReleasesAux

/-- The life of the pipes of a pipeline, whatever the system answers as long as all descriptors are different. Where every pipe is made,
and then some are released, in any order, again, or at places where there are none: the set tells of just those that are left. The shell
has asked for nothing but the pipes, and when it lets go of the set, both ends of each have been closed once, and nothing else. Where a
pipe cannot be made, the same is true of the ones before it. -/
theorem descriptors_of_releases (S : System σ) (qs : List Pipe) (distinct : (qs.flatMap Pipe.ends).Nodup)
    (s : Session (σ × List LaunchCall)) :
    (S.pipeAnswers qs.length s.world.1 = qs.map Pipe.answer → ∀ places : List Nat,
      ∃ (opened p : PipeSet) (closed : List Descriptor) (s₁ s₂ : Session (σ × List LaunchCall)),
        openPipes S.journaled qs.length s = (.ok opened, s₁) ∧ releasePipes S.journaled opened places s₁ = (p, s₂) ∧
        p.Tells qs places ∧ s₂.world.2 = s.world.2 ++ (qs.map Pipe.call ++ closed.map .close) ∧
        (closeAll S.journaled p.openDescriptors s₂).2.world.2 =
          s.world.2 ++ (qs.map Pipe.call ++ (closed ++ p.openDescriptors).map .close) ∧
        ∀ d, (closed ++ p.openDescriptors).count d = if d ∈ qs.flatMap Pipe.ends then 1 else 0) ∧
    (∀ count e, qs.length < count → S.pipeAnswers (qs.length + 1) s.world.1 = qs.map Pipe.answer ++ [.error e] →
      ∃ (closed : List Descriptor) (s' : Session (σ × List LaunchCall)), openPipes S.journaled count s = (.error e, s') ∧
        s'.world.2 = s.world.2 ++ (qs.map Pipe.call ++ .makePipe (.error e) :: closed.map .close) ∧
        ∀ d, closed.count d = if d ∈ qs.flatMap Pipe.ends then 1 else 0) := by
  constructor
  · intro made places
    obtain ⟨s₁, opened, entered⟩ := openPipesFrom_made [] made
    rw [List.nil_append, PipeSet.keeping_zero qs] at opened
    obtain ⟨closed, s₂, released, entered', struck⟩ := releasePipes_journaled (S := S) qs [] places s₁
    rw [List.nil_append] at released struck
    have sofar : s₂.world.2 = s.world.2 ++ (qs.map Pipe.call ++ closed.map .close) := by
      rw [entered', entered, List.append_assoc]
    refine ⟨_, .without qs places, closed, s₁, s₂, opened, released, PipeSet.tells_without qs places, sofar, ?_, fun d => ?_⟩
    · rw [closeAll_journaled, sofar, List.map_append, List.append_assoc, List.append_assoc]
    · have all_open : (PipeSet.without qs []).openDescriptors = qs.flatMap Pipe.ends := by
        rw [← PipeSet.keeping_zero, PipeSet.openDescriptors_keeping, List.drop_zero]
      rw [struck.count_eq, all_open, distinct.count]
  · intro count e hc failed
    obtain ⟨s', refused, entered⟩ := openPipesFrom_failed [] count hc failed
    exact ⟨qs.flatMap Pipe.ends, s', refused, entered, fun d => distinct.count⟩

/-- Three pipes can be made and no fourth. Of the three the one in the middle is released, then one that was never made, then the first,
and then the one in the middle again. -/
theorem descriptors_of_releases_three :
    let S := System.scarce 9
    let s : Session ((Unit × Nat) × List LaunchCall) := { world := (((), 3), []) }
    let qs : List Pipe := [⟨3, 4⟩, ⟨5, 6⟩, ⟨7, 8⟩]
    (qs.flatMap Pipe.ends).Nodup ∧ S.pipeAnswers 3 s.world.1 = qs.map Pipe.answer ∧
    S.pipeAnswers 4 s.world.1 = qs.map Pipe.answer ++ [.error .tooManyFiles] ∧
    (∃ (opened p : PipeSet) (closed : List Descriptor) (s₁ s₂ : Session ((Unit × Nat) × List LaunchCall)),
      openPipes S.journaled 3 s = (.ok opened, s₁) ∧ releasePipes S.journaled opened [1, 5, 0, 1] s₁ = (p, s₂) ∧
      p.length = 3 ∧ p.openDescriptors = [7, 8] ∧ p.outputOf 2 = some 8 ∧ p.inputOf 3 = some 7 ∧
      p.outputOf 1 = none ∧ p.inputOf 2 = none ∧ s₂.world.2 = qs.map Pipe.call ++ closed.map .close ∧
      ∀ d ∈ [3, 4, 5, 6, 7, 8], (closed ++ [7, 8]).count d = 1) ∧
    ∃ (closed : List Descriptor) (s' : Session ((Unit × Nat) × List LaunchCall)),
      openPipes S.journaled 4 s = (.error .tooManyFiles, s') ∧ ∀ d ∈ [3, 4, 5, 6, 7, 8], closed.count d = 1 := by
  intro S s qs
  have distinct : (qs.flatMap Pipe.ends).Nodup := by decide
  have all : ∀ d ∈ [3, 4, 5, 6, 7, 8], d ∈ qs.flatMap Pipe.ends := fun d hd => hd
  obtain ⟨lives, fails⟩ := descriptors_of_releases S qs distinct s
  refine ⟨distinct, rfl, rfl, ?_, ?_⟩
  · obtain ⟨opened, p, closed, s₁, s₂, made, released, tells, entered, -, once⟩ := lives rfl [1, 5, 0, 1]
    have left : p.openDescriptors = [7, 8] := tells.opened
    obtain ⟨output, input⟩ := tells.joined 2 ⟨7, 8⟩ rfl (by decide)
    obtain ⟨no_output, no_input⟩ := tells.apart 1 (by decide)
    rw [left] at once
    exact ⟨opened, p, closed, s₁, s₂, made, released, tells.length, left, output, input, no_output, no_input, entered,
      fun d hd => by rw [once, if_pos (all d hd)]⟩
  · obtain ⟨closed, s', refused, -, once⟩ := fails 4 .tooManyFiles (by decide) rfl
    exact ⟨closed, s', refused, fun d hd => by rw [once, if_pos (all d hd)]⟩

end JobShell
