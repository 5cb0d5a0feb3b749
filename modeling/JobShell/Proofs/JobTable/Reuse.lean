import JobShell.Proofs.JobTable.Accounting

/-!
# Process ids that are used again

Pipelines are registered while others run, and the id of a process that ended may come back in a later pipeline. A job keeps the
ids of its members when they have ended, so an id may be listed by several jobs. The end of a process is credited to the oldest
job in the table that lists it (`ownerOf?_oldest`), and to no other.

`credited_to_latest` says where this is the job that the process belongs to: as long as an id comes back only when the job that
had it before has ended. That its process has ended is not enough.
-/

namespace JobShell

/-- What is entered in the table: a pipeline is registered, or the end of a process is accounted for. -/
inductive BookEntry where
  | registered (r : Registration)
  | ended (pid group : Pid) (status : ExitStatus)

/-- A registered pipeline, and the processes that ended since. -/
structure Record where
  registration : Registration
  gone : List Pid := []

namespace Record

/-- The members that have not ended since the registration. -/
def left (a : Record) : List Pid := a.registration.left a.gone

/-- The record when one more process has ended. -/
def ending (a : Record) (pid : Pid) : Record := { a with gone := pid :: a.gone }

variable {a : Record} {pid : Pid}

/-- Before a process ends, all members are left. -/
theorem left_new (r : Registration) : left { registration := r } = r.members :=
  leftOf_of_disjoint fun _ _ => List.not_mem_nil

/-- A member that is left is a member. -/
theorem mem_of_left (h : pid ∈ a.left) : pid ∈ a.registration.members := (mem_leftOf.1 h).1

/-- The processes that have ended when one more has. -/
theorem mem_gone_ending (p : Pid) : p ∈ (a.ending pid).gone ↔ p ∈ a.gone ∨ p = pid := by
  rw [ending, List.mem_cons, or_comm]

/-- No member comes to be left with the end of a process. -/
theorem left_ending_subset : (a.ending pid).left ⊆ a.left := fun p hp => by
  obtain ⟨hm, hn⟩ := mem_leftOf.1 hp
  exact mem_leftOf.2 ⟨hm, fun hg => hn (List.mem_cons_of_mem _ hg)⟩

/-- The end of a process that is no member leaves the same members. -/
theorem left_ending_of_not_mem (h : pid ∉ a.registration.members) : (a.ending pid).left = a.left :=
  leftOf_of_not_mem mem_gone_ending h

/-- The end of a member leaves the others. -/
theorem length_left_ending (hn : a.registration.members.Nodup) (h : pid ∈ a.left) :
    (a.ending pid).left.length + 1 = a.left.length :=
  length_leftOf_of_mem mem_gone_ending hn h

/-- Where members are left after the end of a process, members were left before. -/
theorem left_ne_of_ending (h : (a.ending pid).left ≠ []) : a.left ≠ [] := fun he =>
  h (List.eq_nil_of_subset_nil (he ▸ left_ending_subset))

end Record

/-- The book of the entries: a record for each pipeline, in the order of their registration. -/
def BookEntry.record (book : List Record) : BookEntry → List Record
  | .registered r => book ++ [{ registration := r }]
  | .ended pid .. => book.map (·.ending pid)

/-- What the system guarantees of the next entry: an id is given to a member only when no process has it, and a process that
ends is a member that has not ended. -/
def BookEntry.Fits (book : List Record) : BookEntry → Prop
  | .registered r => r.members ≠ [] ∧ r.members.Nodup ∧ ∀ a ∈ book, List.Disjoint a.left r.members
  | .ended pid .. => ∃ a ∈ book, pid ∈ a.left

/-- The ids of the members come from no job that has members left. -/
def BookEntry.Fresh (book : List Record) : BookEntry → Prop
  | .registered r => ∀ a ∈ book, a.left ≠ [] → List.Disjoint a.registration.members r.members
  | .ended .. => True

namespace BookEntry

/-- The book after entries were made, the first one first. -/
def recordAll (book : List Record) (entries : List BookEntry) : List Record := entries.foldl record book

/-- Each of the entries is one that the system guarantees, and none gives an id to a member that a job with members left lists. -/
def Regular : List Record → List BookEntry → Prop
  | _, [] => True
  | book, e :: rest => e.Fits book ∧ e.Fresh book ∧ Regular (e.record book) rest

end BookEntry

namespace JobTable

/-- Makes an entry; gives the notice that is due. -/
def enter (t : JobTable) : BookEntry → JobTable × Option Notice
  | .registered r => ((t.addPipeline r.pgid r.command r.background r.members).1, none)
  | .ended pid group status => t.childExited pid group status

/-- Makes entries, the first one first. -/
def enterAll (t : JobTable) (entries : List BookEntry) : JobTable := entries.foldl (fun t e => (t.enter e).1) t

/-- The table is one of the book: each job in it is one of a pipeline with members left, which it counts, and each of these is
in it. An id that is listed twice is one of a process that ended before the later pipeline was registered, and of two pipelines
with members left no id is listed by both. -/
structure Follows (book : List Record) (t : JobTable) : Prop where
  wellFormed : t.WellFormed
  lastId : t.lastId = book.length
  counted : ∀ j ∈ t.jobs, ∃ a, book[j.id - 1]? = some a ∧ j.members = a.registration.members ∧ j.live = a.left.length ∧
    a.left ≠ []
  kept : ∀ (i : Nat) a, book[i]? = some a → a.left ≠ [] → ∃ j ∈ t.jobs, j.id = i + 1
  nodup : ∀ a ∈ book, a.registration.members.Nodup
  reused : ∀ (i k : Nat) a c, i < k → book[i]? = some a → book[k]? = some c → List.Disjoint a.left c.registration.members
  apart : ∀ (i k : Nat) a c, i < k → book[i]? = some a → book[k]? = some c → a.left ≠ [] → c.left ≠ [] →
    List.Disjoint a.registration.members c.registration.members

variable {t : JobTable} {book : List Record} {a : Record} {j k : Job} {pid group : Pid} {status : ExitStatus} {i : Nat}

/-- A process belongs to the oldest job in the table that lists it. -/
theorem ownerOf?_oldest (h : t.WellFormed) (hj : j ∈ t.jobs) (hp : pid ∈ j.members)
    (hold : ∀ k ∈ t.jobs, pid ∈ k.members → j.id ≤ k.id) : t.ownerOf? pid group = some j := by
  obtain ⟨i, hi⟩ : ∃ i, t.jobs.find? (fun j => j.isTracked && j.members.contains pid) = some i := by
    refine Option.isSome_iff_exists.1 (List.find?_isSome.2 ⟨j, hj, ?_⟩)
    simp [h.tracked j hj, hp]
  obtain ⟨hip, before, after, hjobs, hbefore⟩ := List.find?_eq_some_iff_append.1 hi
  have hmem : i ∈ t.jobs := List.mem_of_find?_eq_some hi
  simp only [Bool.and_eq_true, List.contains_iff_mem] at hip
  -- The first job that lists the process is older than all others that do.
  have hle : i.id ≤ j.id := by
    rw [hjobs] at hj
    rcases List.mem_append.1 hj with hj | hj
    · have := hbefore j hj
      simp [hp, h.tracked j (hjobs ▸ List.mem_append_left _ hj)] at this
    · rcases List.mem_cons.1 hj with rfl | hj
      · exact Nat.le_refl _
      · have hasc := h.ascending
        rw [hjobs] at hasc
        exact Nat.le_of_lt (List.rel_of_pairwise_cons (List.pairwise_append.1 hasc).2.1 hj)
  obtain rfl := h.eq_of_id hmem hj (Nat.le_antisymm hle (hold i hmem hip.2))
  rw [ownerOf?, hi, Option.some_or]

namespace Follows

/-- Of the pipelines with members left, one at most lists a process. -/
theorem place_unique (h : Follows book t) {c : Record} {k : Nat} (hi : book[i]? = some a) (hk : book[k]? = some c)
    (ha : a.left ≠ []) (hc : c.left ≠ []) (hpa : pid ∈ a.registration.members) (hpc : pid ∈ c.registration.members) : i = k := by
  rcases Nat.lt_trichotomy i k with hlt | rfl | hlt
  · exact absurd hpc (h.apart i k a c hlt hi hk ha hc hpa)
  · rfl
  · exact absurd hpa (h.apart k i c a hlt hk hi hc ha hpc)

/-- A member that has not ended belongs to the job of its pipeline, whatever its group is said to be. -/
theorem owner (h : Follows book t) (hi : book[i]? = some a) (hp : pid ∈ a.left) (group : Pid) :
    ∃ j ∈ t.jobs, j.id = i + 1 ∧ t.ownerOf? pid group = some j := by
  have hne := List.ne_nil_of_mem hp
  obtain ⟨j, hj, hid⟩ := h.kept i a hi hne
  refine ⟨j, hj, hid, ownerOf?_oldest h.wellFormed hj ?_ fun k hk hpk => ?_⟩
  · obtain ⟨c, hc, hm, -⟩ := h.counted j hj
    rw [hid, Nat.add_sub_cancel, hi] at hc
    rw [hm, ← Option.some.inj hc]
    exact (mem_leftOf.1 hp).1
  · obtain ⟨c, hc, hm, -, hleft⟩ := h.counted k hk
    have hplace := h.place_unique hi hc hne hleft (mem_leftOf.1 hp).1 (hm ▸ hpk)
    rw [hid, hplace]
    exact Nat.le_of_eq (Nat.sub_add_cancel (h.wellFormed.issued k hk).1)

/-- No later pipeline lists a member that has not ended. -/
theorem latest (h : Follows book t) (hi : book[i]? = some a) (hp : pid ∈ a.left) {c : Record} {k : Nat} (hk : book[k]? = some c)
    (hpc : pid ∈ c.registration.members) : k ≤ i := by
  by_contra hlt
  exact h.reused i k a c (Nat.lt_of_not_le hlt) hi hk hp hpc

/-- The table of a fresh shell follows the empty book. -/
theorem start : Follows [] {} := by
  refine ⟨wellFormed_empty, rfl, ?_, ?_, ?_, ?_, ?_⟩ <;> simp

/-- A pipeline is registered whose members come from no job with members left. -/
theorem registered (h : Follows book t) {r : Registration} (hf : (BookEntry.registered r).Fits book)
    (hn : (BookEntry.registered r).Fresh book) :
    Follows (book ++ [{ registration := r }]) (t.addPipeline r.pgid r.command r.background r.members).1 := by
  obtain ⟨hne, hnd, hfree⟩ := hf
  -- A place in the book is one of before, or the new one.
  have place : ∀ {i : Nat} {a}, (book ++ [{ registration := r }])[i]? = some a →
      book[i]? = some a ∨ (i = book.length ∧ a = { registration := r }) := by
    intro i a ha
    rcases Nat.lt_or_ge i book.length with hlt | hge
    · rw [List.getElem?_append_left hlt] at ha
      exact Or.inl ha
    · rw [List.getElem?_append_right hge] at ha
      obtain ⟨hi, rfl⟩ := List.getElem?_eq_some_iff.1 ha
      rw [List.length_singleton] at hi
      exact Or.inr ⟨by omega, by simp [show i - book.length = 0 by omega]⟩
  have old : ∀ {i : Nat} {a}, book[i]? = some a → i < book.length ∧ a ∈ book := fun ha =>
    ⟨(List.getElem?_eq_some_iff.1 ha).1, List.mem_of_getElem? ha⟩
  refine ⟨h.wellFormed.insert .., ?_, fun j hj => ?_, fun i a ha hleft => ?_, ?_, fun i k a c hlt hi hk => ?_,
    fun i k a c hlt hi hk ha hc => ?_⟩
  · rw [List.length_append, List.length_singleton, ← h.lastId]
    rfl
  · rcases mem_insert.1 hj with hj | rfl
    · obtain ⟨a, ha, hrest⟩ := h.counted j hj
      exact ⟨a, (List.getElem?_append_left (old ha).1).trans ha, hrest⟩
    · exact ⟨{ registration := r }, by simp [h.lastId], rfl, by rw [Record.left_new], by rw [Record.left_new]; exact hne⟩
  · rcases place ha with ha | ⟨rfl, rfl⟩
    · obtain ⟨j, hj, hid⟩ := h.kept i a ha hleft
      exact ⟨j, mem_insert.2 (Or.inl hj), hid⟩
    · exact ⟨_, mem_insert.2 (Or.inr rfl), by rw [h.lastId]⟩
  · simpa using fun a ha => ha.elim (h.nodup a) fun he => he ▸ hnd
  · rcases place hi with hi | ⟨rfl, rfl⟩ <;> rcases place hk with hk | ⟨rfl, rfl⟩
    · exact h.reused i k a c hlt hi hk
    · exact hfree a (old hi).2
    · exact absurd (old hk).1 (Nat.not_lt.2 (Nat.le_of_lt hlt))
    · exact absurd hlt (Nat.lt_irrefl _)
  · rcases place hi with hi | ⟨rfl, rfl⟩ <;> rcases place hk with hk | ⟨rfl, rfl⟩
    · exact h.apart i k a c hlt hi hk ha hc
    · exact hn a (old hi).2 ha
    · exact absurd (old hk).1 (Nat.not_lt.2 (Nat.le_of_lt hlt))
    · exact absurd hlt (Nat.lt_irrefl _)

/-- The end of a member that has not ended is credited to the job of its pipeline and to no other. -/
theorem ended (h : Follows book t) (hi : book[i]? = some a) (hp : pid ∈ a.left) (group : Pid) (status : ExitStatus) :
    Follows (book.map (·.ending pid)) (t.childExited pid group status).1 := by
  obtain ⟨j, hj, hid, ho⟩ := h.owner hi hp group
  have hsame : ∀ {k : Nat} {c}, book[k]? = some c → c.left ≠ [] → k ≠ i → (c.ending pid).left = c.left := fun hk hc hne =>
    Record.left_ending_of_not_mem fun hpc => hne (h.place_unique hk hi hc (List.ne_nil_of_mem hp) hpc (Record.mem_of_left hp))
  have hlen := Record.length_left_ending (h.nodup a (List.mem_of_getElem? hi)) hp
  have place : ∀ {k : Nat} {c}, (book.map (·.ending pid))[k]? = some c → ∃ b, book[k]? = some b ∧ c = b.ending pid := by
    intro k c hc
    rw [List.getElem?_map] at hc
    obtain ⟨b, hb, rfl⟩ := Option.map_eq_some_iff.1 hc
    exact ⟨b, hb, rfl⟩
  have keep : ∀ {k : Nat} {c}, book[k]? = some c → (book.map (·.ending pid))[k]? = some (c.ending pid) := by
    intro k c hc
    rw [List.getElem?_map, hc]
    rfl
  obtain ⟨b, hb, hm, hlive, -⟩ := h.counted j hj
  rw [hid, Nat.add_sub_cancel, hi] at hb
  obtain rfl := Option.some.inj hb
  refine ⟨h.wellFormed.childExited .., ?_, fun k hk => ?_, fun k c hc hleft => ?_, ?_, fun k m c d hlt hk hm => ?_,
    fun k m c d hlt hk hm hc hd => ?_⟩
  · rw [lastId_childExited, h.lastId, List.length_map]
  · rcases (mem_childExited h.wellFormed ho).1 hk with ⟨hk, hne⟩ | ⟨hmore, rfl⟩
    · obtain ⟨c, hc, hm, hl, hleft⟩ := h.counted k hk
      have hplace : k.id - 1 ≠ i := fun he =>
        hne (by rw [hid, ← he]; exact (Nat.sub_add_cancel (h.wellFormed.issued k hk).1).symm)
      have hother := hsame hc hleft hplace
      exact ⟨_, keep hc, hm, by rw [hother]; exact hl, by rw [hother]; exact hleft⟩
    · refine ⟨a.ending pid, ?_, hm, ?_, ?_⟩
      · rw [hid, Nat.add_sub_cancel]
        exact keep hi
      · show j.live - 1 = _
        omega
      · exact List.length_pos_iff.1 (by omega)
  · obtain ⟨b, hb, rfl⟩ := place hc
    by_cases he : k = i
    · subst he
      obtain rfl := Option.some.inj (hi.symm.trans hb)
      have := List.length_pos_iff.2 hleft
      exact ⟨_, (mem_childExited h.wellFormed ho).2 (Or.inr ⟨by omega, rfl⟩), hid⟩
    · obtain ⟨m, hm, hmid⟩ := h.kept k b hb (Record.left_ne_of_ending hleft)
      exact ⟨m, (mem_childExited h.wellFormed ho).2
        (Or.inl ⟨hm, fun hmj => he (Nat.succ.inj (hmid.symm.trans (hmj.trans hid)))⟩), hmid⟩
  · intro c hc
    obtain ⟨b, hb, rfl⟩ := List.mem_map.1 hc
    exact h.nodup b hb
  · obtain ⟨c, hc, rfl⟩ := place hk
    obtain ⟨d, hd, rfl⟩ := place hm
    exact fun p hpc => h.reused k m c d hlt hc hd (Record.left_ending_subset hpc)
  · obtain ⟨c, hck, rfl⟩ := place hk
    obtain ⟨d, hdm, rfl⟩ := place hm
    exact h.apart k m c d hlt hck hdm (Record.left_ne_of_ending hc) (Record.left_ne_of_ending hd)

/-- Every entry keeps the table with the book. -/
theorem enter (h : Follows book t) {e : BookEntry} (hf : e.Fits book) (hn : e.Fresh book) :
    Follows (e.record book) (t.enter e).1 := by
  cases e with
  | registered r => exact h.registered hf hn
  | ended pid group status =>
    obtain ⟨a, ha, hp⟩ := hf
    obtain ⟨i, hi⟩ := List.getElem?_of_mem ha
    exact h.ended hi hp group status

/-- Every run of entries keeps the table with the book. -/
theorem enterAll (h : Follows book t) {entries : List BookEntry} (hr : BookEntry.Regular book entries) :
    Follows (BookEntry.recordAll book entries) (t.enterAll entries) := by
  induction entries generalizing t book with
  | nil => exact h
  | cons e rest ih => exact ih (h.enter hr.1 hr.2.1) hr.2.2

end Follows

/-- The end of a process changes the job it belongs to, and no other one. -/
theorem find?_childExited_of_ne (h : t.WellFormed) (ho : t.ownerOf? pid group = some j) {id : JobId} (hid : id ≠ j.id) :
    (t.childExited pid group status).1.find? id = t.find? id := by
  refine Option.ext fun k => ?_
  rw [find?_eq_some_iff (h.childExited ..), find?_eq_some_iff h, mem_childExited h ho]
  constructor
  · rintro ⟨⟨hk, -⟩ | ⟨-, rfl⟩, hkid⟩
    · exact ⟨hk, hkid⟩
    · exact absurd hkid.symm hid
  · rintro ⟨hk, rfl⟩
    exact ⟨Or.inl ⟨hk, hid⟩, rfl⟩

end JobTable

open JobTable in
/-- The ends of processes are credited to the jobs that they belong to, also where ids are used again, as long as no pipeline is
registered with an id that a job with members left lists. After any such entries, for each pipeline:
1. Its job is in the table exactly when some member of it has not ended since it was registered.
2. The job counts the members that have not ended since.
3. A member that has not ended is listed by no later pipeline, and its end changes no other job. -/
theorem credited_to_latest (entries : List BookEntry) (h : BookEntry.Regular [] entries) (i : Nat) (a : Record)
    (hi : (BookEntry.recordAll [] entries)[i]? = some a) :
    (((enterAll {} entries).find? (i + 1)).isSome ↔ a.left ≠ []) ∧
    (∀ j, (enterAll {} entries).find? (i + 1) = some j → j.live = a.left.length) ∧
    ∀ pid ∈ a.left,
      (∀ (k : Nat) c, (BookEntry.recordAll [] entries)[k]? = some c → pid ∈ c.registration.members → k ≤ i) ∧
      ∀ group status id, id ≠ i + 1 →
        ((enterAll {} entries).childExited pid group status).1.find? id = (enterAll {} entries).find? id := by
  have hfollows := Follows.start.enterAll h
  have hknown : ∀ j ∈ (enterAll {} entries).jobs, j.id = i + 1 → j.live = a.left.length ∧ a.left ≠ [] := by
    intro j hj hid
    obtain ⟨c, hc, -, hrest⟩ := hfollows.counted j hj
    rw [hid, Nat.add_sub_cancel, hi] at hc
    obtain rfl := Option.some.inj hc
    exact hrest
  refine ⟨?_, fun j hj => ?_, fun pid hp => ⟨fun k c hc hpc => hfollows.latest hi hp hc hpc, fun group status id hid => ?_⟩⟩
  · rw [find?_isSome_iff]
    exact ⟨fun ⟨j, hj, hid⟩ => (hknown j hj hid).2, hfollows.kept i a hi⟩
  · obtain ⟨hj, hid⟩ := (find?_eq_some_iff hfollows.wellFormed).1 hj
    exact (hknown j hj hid).1
  · obtain ⟨j, -, hjid, ho⟩ := hfollows.owner hi hp group
    exact find?_childExited_of_ne hfollows.wellFormed ho (hjid ▸ hid)

/-- An id comes back while the job that listed it has a member left: the end of the later process ends that job. -/
example :
    let t := JobTable.enterAll {} [.registered ⟨100, "sleep 9 | true", true, [100, 101]⟩, .ended 101 100 (.exited 0),
      .registered ⟨102, "sleep 9 | false", true, [102, 101]⟩]
    (t.enter (.ended 101 102 (.exited 1))).2 = some (.finished 1 "sleep 9 | true" (.exited 1)) := by
  decide

end JobShell
