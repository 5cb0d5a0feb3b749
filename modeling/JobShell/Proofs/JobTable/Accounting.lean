import JobShell.Proofs.JobTable.Operations
import Mathlib.Data.List.Induction

/-!
# Accounting for the ends of processes

Pipelines are registered, and then reports of status changes come in, in any order. `accounting_of_reports` says what the table
shows after each of them: a job is tracked exactly as long as one of its members has not ended, it counts the members that have
not ended, and the end of a background job is announced once, with the end of its last member.

The statement does not lean on what is answered about the groups of the members: a member is recognized by its id first
(`ownerOf?_of_member`). The invariant is `Accounts`, which one report keeps (`Accounts.report`) and so every run does.
-/

namespace JobShell

/-- What a pipeline is registered with. -/
structure Registration where
  pgid : Pid
  command : String
  background : Bool
  members : List Pid
  deriving DecidableEq, Repr

namespace Registration

/-- The members that are left when these processes have ended. -/
def left (r : Registration) (gone : List Pid) : List Pid := leftOf r.members gone

/-- How many notices of its end are due when these processes have ended: one of a background pipeline without members left. -/
def endings (r : Registration) (gone : List Pid) : Nat := if r.background = true ∧ r.left gone = [] then 1 else 0

/-- Pipelines that can be told apart: each has members, and no process is a member twice. -/
structure Family (rs : List Registration) : Prop where
  nonempty : ∀ r ∈ rs, r.members ≠ []
  nodup : ∀ r ∈ rs, r.members.Nodup
  disjoint : rs.Pairwise fun a b => List.Disjoint a.members b.members

end Registration

/-- The process whose end is reported. -/
def Report.ended? (r : Report) : Option Pid := r.status.ended?

namespace Report

/-- What may be reported of these registrations when the processes in `gone` have ended: a change of a member that has not
ended, or of a process that is no member and whose group is not the one of a job with members left. -/
def Fits (rs : List Registration) (gone : List Pid) (r : Report) : Prop :=
  ∀ pid, r.status.pid? = some pid →
    (∃ a ∈ rs, pid ∈ a.left gone) ∨
    ((∀ a ∈ rs, pid ∉ a.members) ∧ ∀ a ∈ rs, a.left gone ≠ [] → (r.groupOf pid).getD pid ≠ a.pgid)

end Report

/-- The processes whose end was reported. -/
def endedIn (reports : List Report) : List Pid := reports.filterMap Report.ended?

/-- Each of the reports may come after the ones before it. -/
def Admissible (rs : List Registration) : (gone : List Pid) → List Report → Prop
  | _, [] => True
  | gone, r :: rest => r.Fits rs gone ∧ Admissible rs (gone ++ r.ended?.toList) rest

/-- The notice tells of the end of the job with this number. -/
def Notice.isEndOf (id : JobId) : Notice → Bool
  | .finished i _ _ => i == id
  | _ => false

namespace JobTable

/-- Registers pipelines, one after the other. -/
def registerAll (t : JobTable) (rs : List Registration) : JobTable :=
  rs.foldl (fun t r => (t.addPipeline r.pgid r.command r.background r.members).1) t

/-- The table accounts for these registrations when the processes in `gone` have ended: it is well-formed, each job in it is
one of them and counts the members left, of which there are some, and each one with members left is in it. -/
structure Accounts (rs : List Registration) (gone : List Pid) (t : JobTable) : Prop where
  wellFormed : t.WellFormed
  known : ∀ j ∈ t.jobs, ∃ r, rs[j.id - 1]? = some r ∧ j.background = r.background ∧ j.members = r.members ∧
    j.pgid = r.pgid ∧ j.live = (r.left gone).length ∧ r.left gone ≠ []
  kept : ∀ (i : Nat) r, rs[i]? = some r → r.left gone ≠ [] → ∃ j ∈ t.jobs, j.id = i + 1

end JobTable

namespace AccountingAux

open JobTable Registration

variable {t : JobTable} {rs : List Registration} {gone : List Pid} {r a : Registration} {pid : Pid}

/-- While nothing has ended, all members are left. -/
theorem left_nil (r : Registration) : r.left [] = r.members :=
  leftOf_of_disjoint fun _ _ => List.not_mem_nil

/-- The processes that have ended when one more has. -/
theorem mem_gone_iff (p : Pid) : p ∈ gone ++ [pid] ↔ p ∈ gone ∨ p = pid := by
  simp

/-- The end of a process that is no member leaves the same members. -/
theorem left_of_not_mem (h : pid ∉ r.members) : r.left (gone ++ [pid]) = r.left gone :=
  leftOf_of_not_mem mem_gone_iff h

/-- The end of a member leaves the others. -/
theorem left_length_of_mem (hn : r.members.Nodup) (h : pid ∈ r.left gone) :
    (r.left (gone ++ [pid])).length + 1 = (r.left gone).length :=
  length_leftOf_of_mem mem_gone_iff hn h

/-- The registrations at two places of a family without common members are the same place when they share a member. -/
theorem place_unique (hf : Family rs) {i k : Nat}
    (hi : rs[i]? = some r) (hk : rs[k]? = some a) (hr : pid ∈ r.members) (ha : pid ∈ a.members) : i = k := by
  obtain ⟨hil, rfl⟩ := List.getElem?_eq_some_iff.1 hi
  obtain ⟨hkl, rfl⟩ := List.getElem?_eq_some_iff.1 hk
  rcases Nat.lt_trichotomy i k with hlt | rfl | hlt
  · exact absurd ha (List.pairwise_iff_getElem.1 hf.disjoint i k hil hkl hlt hr)
  · rfl
  · exact absurd hr (List.pairwise_iff_getElem.1 hf.disjoint k i hkl hil hlt ha)

/-! ### One report -/

/-- A member that is left belongs to the job of its registration, whatever its group is said to be. -/
theorem owner_of_left (h : Accounts rs gone t) (hf : Family rs) {i : Nat} (ha : rs[i]? = some a)
    (hp : pid ∈ a.left gone) (group : Pid) :
    ∃ j ∈ t.jobs, j.id = i + 1 ∧ t.ownerOf? pid group = some j := by
  have hpm := (mem_leftOf.1 hp).1
  obtain ⟨j, hj, hid⟩ := h.kept i a ha (List.ne_nil_of_mem hp)
  refine ⟨j, hj, hid, ownerOf?_of_member h.wellFormed hj ?_ ?_⟩
  · obtain ⟨b, hb, -, hm, -⟩ := h.known j hj
    rw [hid, Nat.add_sub_cancel, ha] at hb
    rw [hm, ← Option.some.inj hb]
    exact hpm
  · intro k hk hpk
    obtain ⟨b, hb, -, hm, -⟩ := h.known k hk
    have hpos := (h.wellFormed.issued k hk).1
    have hplace := place_unique hf ha hb hpm (hm ▸ hpk)
    refine h.wellFormed.eq_of_id hk hj ?_
    rw [hid, hplace]
    exact (Nat.sub_add_cancel hpos).symm

/-- A process that is no member, in a group of no job with members left, belongs to no job. -/
theorem owner_of_foreign (h : Accounts rs gone t) {group : Pid} (hm : ∀ a ∈ rs, pid ∉ a.members)
    (hg : ∀ a ∈ rs, a.left gone ≠ [] → group ≠ a.pgid) : t.ownerOf? pid group = none := by
  refine ownerOf?_eq_none ?_ ?_
  · intro j hj hp
    obtain ⟨a, ha, -, hjm, -⟩ := h.known j hj
    exact hm a (List.mem_of_getElem? ha) (hjm ▸ hp)
  · intro j hj he
    obtain ⟨a, ha, -, -, hjg, -, hl⟩ := h.known j hj
    exact hg a (List.mem_of_getElem? ha) hl (he.symm.trans hjg)

/-- A process that is no member changes nothing by its end. -/
theorem accounts_of_foreign (h : Accounts rs gone t) (hm : ∀ a ∈ rs, pid ∉ a.members) : Accounts rs (gone ++ [pid]) t := by
  refine ⟨h.wellFormed, ?_, ?_⟩
  · intro j hj
    obtain ⟨a, ha, hb, hjm, hg, hl, hn⟩ := h.known j hj
    have he : a.left (gone ++ [pid]) = a.left gone := left_of_not_mem (hm a (List.mem_of_getElem? ha))
    exact ⟨a, ha, hb, hjm, hg, by rw [he]; exact hl, by rw [he]; exact hn⟩
  · intro i a ha hl
    rw [left_of_not_mem (hm a (List.mem_of_getElem? ha))] at hl
    exact h.kept i a ha hl

/-- A job that stops or goes on stays in the account. -/
theorem accounts_childMoved (h : Accounts rs gone t) {group : Pid} {state : JobState} (hs : state ≠ .done) :
    Accounts rs gone (t.childMoved pid group state).1 := by
  cases ho : t.ownerOf? pid group with
  | none =>
    rw [childMoved_of_none ho]
    exact h
  | some j =>
    have hj := (ownerOf?_some ho).1
    rw [childMoved_of_owner ho]
    refine ⟨h.wellFormed.modify (fun _ => rfl) fun _ _ => bne_iff_ne.2 hs, ?_, ?_⟩
    · intro k hk
      rcases (mem_modify h.wellFormed hj).1 hk with ⟨hk, -⟩ | rfl
      · exact h.known k hk
      · exact h.known j hj
    · intro i a ha hl
      obtain ⟨k, hk, hid⟩ := h.kept i a ha hl
      by_cases he : k.id = j.id
      · exact ⟨_, (mem_modify h.wellFormed hj).2 (Or.inr rfl), he.symm.trans hid⟩
      · exact ⟨k, (mem_modify h.wellFormed hj).2 (Or.inl ⟨hk, he⟩), hid⟩

/-- The end of a member that is left is credited to its job and to no other. -/
theorem accounts_childExited (h : Accounts rs gone t) (hf : Family rs) {i : Nat} (ha : rs[i]? = some a)
    (hp : pid ∈ a.left gone) (group : Pid) (status : ExitStatus) :
    Accounts rs (gone ++ [pid]) (t.childExited pid group status).1 := by
  obtain ⟨j, hj, hid, ho⟩ := owner_of_left h hf ha hp group
  have hlen := left_length_of_mem (hf.nodup a (List.mem_of_getElem? ha)) hp
  have hother : ∀ k b, rs[k]? = some b → k ≠ i → b.left (gone ++ [pid]) = b.left gone := fun k b hb hne =>
    left_of_not_mem fun hpb => hne (place_unique hf hb ha hpb (mem_leftOf.1 hp).1)
  obtain ⟨b, hb, hbg, hm, hg, hl, -⟩ := h.known j hj
  rw [hid, Nat.add_sub_cancel, ha] at hb
  obtain rfl := Option.some.inj hb
  refine ⟨?_, ?_, ?_⟩
  · by_cases hlive : j.live ≤ 1
    · rw [childExited_of_last ho hlive]
      exact h.wellFormed.finish status
    · rw [childExited_of_more h.wellFormed ho (by omega)]
      exact h.wellFormed.modify (fun _ => rfl) fun _ hi => hi
  · intro k hk
    rcases (mem_childExited h.wellFormed ho).1 hk with ⟨hk, hne⟩ | ⟨hlive, rfl⟩
    · obtain ⟨c, hc, h1, h2, h3, h4, h5⟩ := h.known k hk
      have hpos := (h.wellFormed.issued k hk).1
      have he := hother (k.id - 1) c hc fun he => hne (by rw [hid, ← he]; exact (Nat.sub_add_cancel hpos).symm)
      exact ⟨c, hc, h1, h2, h3, by rw [he]; exact h4, by rw [he]; exact h5⟩
    · refine ⟨a, by rw [hid, Nat.add_sub_cancel]; exact ha, hbg, hm, hg, ?_, ?_⟩
      · show j.live - 1 = _
        omega
      · exact List.length_pos_iff.1 (by omega)
  · intro k c hc hleft
    by_cases he : k = i
    · subst he
      rw [ha] at hc
      obtain rfl := Option.some.inj hc
      have := List.length_pos_iff.2 hleft
      exact ⟨_, (mem_childExited h.wellFormed ho).2 (Or.inr ⟨by omega, rfl⟩), hid⟩
    · rw [hother k c hc he] at hleft
      obtain ⟨m, hm, hmid⟩ := h.kept k c hc hleft
      exact ⟨m, (mem_childExited h.wellFormed ho).2
        (Or.inl ⟨hm, fun hmj => he (Nat.succ.inj (hmid.symm.trans (hmj.trans hid)))⟩), hmid⟩

/-- A notice that a stop is due is no notice of an end. -/
theorem isEndOf_childMoved {group : Pid} {state : JobState} {n : Notice} (id : JobId)
    (h : (t.childMoved pid group state).2 = some n) : n.isEndOf id = false := by
  cases ho : t.ownerOf? pid group with
  | none =>
    rw [childMoved_of_none ho] at h
    cases h
  | some j =>
    rw [childMoved_of_owner ho] at h
    dsimp only at h
    split at h
    · cases h
      rfl
    · cases h

/-- The end of a member that is left is announced when it is the last one of a background job. -/
theorem endings_childExited (h : Accounts rs gone t) (hf : Family rs) {i k : Nat} {b : Registration}
    (hk : rs[k]? = some b) (hp : pid ∈ b.left gone) (ha : rs[i]? = some a) (group : Pid) (status : ExitStatus) :
    a.endings gone + (t.childExited pid group status).2.toList.countP (Notice.isEndOf (i + 1)) =
      a.endings (gone ++ [pid]) := by
  obtain ⟨j, hj, hid, ho⟩ := owner_of_left h hf hk hp group
  obtain ⟨c, hc, hbg, -, -, hl, hleft⟩ := h.known j hj
  rw [hid, Nat.add_sub_cancel, hk] at hc
  obtain rfl := Option.some.inj hc
  have hlen := left_length_of_mem (hf.nodup b (List.mem_of_getElem? hk)) hp
  by_cases hik : i = k
  · subst hik
    rw [hk] at ha
    obtain rfl := Option.some.inj ha
    by_cases hlive : j.live ≤ 1
    · have hgone : b.left (gone ++ [pid]) = [] := List.length_eq_zero_iff.1 (by omega)
      rw [childExited_of_last ho hlive]
      cases hb : b.background <;>
        simp [finish, Job.endNotice, hbg, hb, Registration.endings, hgone, hleft, Notice.isEndOf, hid]
    · have hmore : b.left (gone ++ [pid]) ≠ [] := List.length_pos_iff.1 (by omega)
      rw [childExited_of_more h.wellFormed ho (by omega)]
      simp [Registration.endings, hleft, hmore]
  · have hsame : a.left (gone ++ [pid]) = a.left gone :=
      left_of_not_mem fun hpa => hik (place_unique hf ha hk hpa (mem_leftOf.1 hp).1)
    have hnone : (t.childExited pid group status).2.toList.countP (Notice.isEndOf (i + 1)) = 0 := by
      by_cases hlive : j.live ≤ 1
      · have hne : ¬k = i := fun he => hik he.symm
        rw [childExited_of_last ho hlive]
        cases hb : b.background <;> simp [finish, Job.endNotice, hbg, hb, Notice.isEndOf, hid, hne]
      · rw [childExited_of_more h.wellFormed ho (by omega)]
        rfl
    rw [hnone, Registration.endings, Registration.endings, hsame]
    rfl

end AccountingAux

open AccountingAux Registration

namespace JobTable

variable {t : JobTable} {rs : List Registration} {gone : List Pid}

/-- One report keeps the account. -/
theorem Accounts.report (h : Accounts rs gone t) (hf : Family rs) {r : Report} (hr : r.Fits rs gone) :
    Accounts rs (gone ++ r.ended?.toList) (t.childStatus r.groupOf r.status).1 := by
  rcases childStatus_cases t r.groupOf r.status with ⟨pid, _, hw, he⟩ | ⟨pid, hw, he⟩ | ⟨pid, exit, hp, hx, he⟩ | ⟨hx, he⟩
  · rw [he, show r.ended? = none by simp [Report.ended?, WaitStatus.ended?, hw, WaitStatus.exit?], Option.toList_none, List.append_nil]
    exact accounts_childMoved h (by decide)
  · rw [he, show r.ended? = none by simp [Report.ended?, WaitStatus.ended?, hw, WaitStatus.exit?], Option.toList_none, List.append_nil]
    exact accounts_childMoved h (by decide)
  · rw [he, show r.ended? = some pid by simp [Report.ended?, WaitStatus.ended?, hp, hx], Option.toList_some]
    rcases hr pid hp with ⟨a, ha, hl⟩ | ⟨hm, hg⟩
    · obtain ⟨i, hi⟩ := List.getElem?_of_mem ha
      exact accounts_childExited h hf hi hl _ exit
    · rw [childExited_of_none (owner_of_foreign h hm hg)]
      exact accounts_of_foreign h hm
  · rw [he, show r.ended? = none by simp [Report.ended?, WaitStatus.ended?, hx], Option.toList_none, List.append_nil]
    exact h

/-- One report brings the notice of an end exactly when it tells of the last member of a background job. -/
theorem Accounts.endings_report (h : Accounts rs gone t) (hf : Family rs) {r : Report} (hr : r.Fits rs gone) {i : Nat}
    {a : Registration} (ha : rs[i]? = some a) :
    a.endings gone + (t.childStatus r.groupOf r.status).2.toList.countP (Notice.isEndOf (i + 1)) =
      a.endings (gone ++ r.ended?.toList) := by
  have moved : ∀ pid group state,
      (t.childMoved pid group state).2.toList.countP (Notice.isEndOf (i + 1)) = 0 := by
    intro pid group state
    rw [List.countP_eq_zero]
    intro n hmem
    rw [isEndOf_childMoved _ (Option.mem_toList.1 hmem)]
    exact Bool.false_ne_true
  rcases childStatus_cases t r.groupOf r.status with ⟨pid, _, hw, he⟩ | ⟨pid, hw, he⟩ | ⟨pid, exit, hp, hx, he⟩ | ⟨hx, he⟩
  · rw [he, show r.ended? = none by simp [Report.ended?, WaitStatus.ended?, hw, WaitStatus.exit?], Option.toList_none, List.append_nil, moved]
    rfl
  · rw [he, show r.ended? = none by simp [Report.ended?, WaitStatus.ended?, hw, WaitStatus.exit?], Option.toList_none, List.append_nil, moved]
    rfl
  · rw [he, show r.ended? = some pid by simp [Report.ended?, WaitStatus.ended?, hp, hx], Option.toList_some]
    rcases hr pid hp with ⟨b, hb, hl⟩ | ⟨hm, hg⟩
    · obtain ⟨k, hk⟩ := List.getElem?_of_mem hb
      exact endings_childExited h hf hk hl ha _ exit
    · rw [childExited_of_none (owner_of_foreign h hm hg)]
      simp only [Registration.endings, left_of_not_mem (hm a (List.mem_of_getElem? ha)), Option.toList_none,
        List.countP_nil, Nat.add_zero]
  · rw [he, show r.ended? = none by simp [Report.ended?, WaitStatus.ended?, hx]]
    simp only [Option.toList_none, List.countP_nil, List.append_nil, Nat.add_zero]

/-! ## Every run of reports -/

/-- A run of reports keeps the account, and brings as many notices of the end of each job as are due with it. -/
theorem Accounts.account (h : Accounts rs gone t) (hf : Family rs) {reports : List Report}
    (hr : Admissible rs gone reports) :
    Accounts rs (gone ++ endedIn reports) (t.account reports).1 ∧
      ∀ (i : Nat) a, rs[i]? = some a → a.endings gone + (t.account reports).2.countP (Notice.isEndOf (i + 1)) =
        a.endings (gone ++ endedIn reports) := by
  induction reports generalizing t gone with
  | nil =>
    simp only [account_nil, endedIn, List.filterMap_nil, List.append_nil, List.countP_nil, Nat.add_zero,
      implies_true, and_true]
    exact h
  | cons r rest ih =>
    have hended : gone ++ endedIn (r :: rest) = gone ++ r.ended?.toList ++ endedIn rest := by
      cases hx : r.ended? <;> simp [endedIn, hx]
    obtain ⟨hacc, hcount⟩ := ih (h.report hf hr.1) hr.2
    simp only [account_cons, hended]
    refine ⟨hacc, fun i a ha => ?_⟩
    rw [List.countP_append, ← Nat.add_assoc, h.endings_report hf hr.1 ha, hcount i a ha]

/-- The fresh table accounts for a family that was registered, and has given each pipeline its place as its number. -/
theorem accounts_registerAll (hne : ∀ r ∈ rs, r.members ≠ []) :
    Accounts rs [] (registerAll {} rs) ∧ (registerAll {} rs).lastId = rs.length := by
  induction rs using List.reverseRecOn with
  | nil => exact ⟨⟨wellFormed_empty, by simp [registerAll], by simp⟩, rfl⟩
  | append_singleton rs r ih =>
    obtain ⟨⟨hw, hknown, hkept⟩, hlast⟩ := ih fun a ha => hne a (List.mem_append_left _ ha)
    have he : registerAll {} (rs ++ [r]) =
        ((registerAll {} rs).insert r.pgid r.command r.background r.members.length r.members).1 := by
      simp [registerAll, addPipeline]
    have hr : r.members ≠ [] := hne r (by simp)
    rw [he]
    refine ⟨⟨hw.insert .., ?_, ?_⟩, by simp [insert, hlast]⟩
    · intro j hj
      rcases mem_insert.1 hj with hj | rfl
      · obtain ⟨a, ha, hrest⟩ := hknown j hj
        exact ⟨a, (List.getElem?_append_left (List.getElem?_eq_some_iff.1 ha).1).trans ha, hrest⟩
      · refine ⟨r, by simp [hlast], rfl, rfl, rfl, ?_, ?_⟩
        · rw [left_nil]
        · rw [left_nil]
          exact hr
    · intro i a ha hl
      by_cases hi : i < rs.length
      · rw [List.getElem?_append_left hi] at ha
        obtain ⟨j, hj, hid⟩ := hkept i a ha hl
        exact ⟨j, mem_insert.2 (Or.inl hj), hid⟩
      · have hlen := (List.getElem?_eq_some_iff.1 ha).1
        rw [List.length_append, List.length_singleton] at hlen
        have hplace : rs.length = i := by omega
        exact ⟨_, mem_insert.2 (Or.inr rfl), by rw [hlast, hplace]⟩

end JobTable

/-- What may be reported may be reported in part. -/
theorem Admissible.of_prefix {rs : List Registration} {gone : List Pid} {before reports : List Report}
    (h : Admissible rs gone reports) (hp : before <+: reports) : Admissible rs gone before := by
  induction before generalizing gone reports with
  | nil => trivial
  | cons r rest ih =>
    obtain ⟨after, rfl⟩ := hp
    exact ⟨h.1, ih h.2 (List.prefix_append _ _)⟩

open JobTable in
/-- The account of every run. Pipelines that can be told apart are registered in a fresh table, and then status changes are
reported: of members that have not ended, with anything answered about their groups, and of processes that belong to no job.
After each report:
1. A job is in the table exactly when some member of it has not ended.
2. It counts the members that have not ended.
3. The end of the job was announced once if it is a background job and all its members have ended, and never before that. -/
theorem accounting_of_reports (rs : List Registration) (hf : Registration.Family rs) (reports : List Report)
    (hr : Admissible rs [] reports) (before : List Report) (hb : before <+: reports) (i : Nat) (r : Registration)
    (hi : rs[i]? = some r) :
    ((((registerAll {} rs).account before).1.find? (i + 1)).isSome ↔ r.left (endedIn before) ≠ []) ∧
    (∀ j, ((registerAll {} rs).account before).1.find? (i + 1) = some j → j.live = (r.left (endedIn before)).length) ∧
    ((registerAll {} rs).account before).2.countP (Notice.isEndOf (i + 1)) =
      if r.background = true ∧ r.left (endedIn before) = [] then 1 else 0 := by
  obtain ⟨hacc, hcount⟩ := (accounts_registerAll hf.nonempty).1.account hf (hr.of_prefix hb)
  rw [List.nil_append] at hacc hcount
  have hknown : ∀ j ∈ ((registerAll {} rs).account before).1.jobs, j.id = i + 1 →
      j.live = (r.left (endedIn before)).length ∧ r.left (endedIn before) ≠ [] := by
    intro j hj hid
    obtain ⟨a, ha, -, -, -, hl, hne⟩ := hacc.known j hj
    rw [hid, Nat.add_sub_cancel, hi] at ha
    obtain rfl := Option.some.inj ha
    exact ⟨hl, hne⟩
  refine ⟨?_, ?_, ?_⟩
  · rw [find?_isSome_iff]
    exact ⟨fun ⟨j, hj, hid⟩ => (hknown j hj hid).2, hacc.kept i r hi⟩
  · intro j hj
    obtain ⟨hj, hid⟩ := (find?_eq_some_iff hacc.wellFormed).1 hj
    exact (hknown j hj hid).1
  · have h0 : r.endings [] = 0 := by
      simp [Registration.endings, left_nil, hf.nonempty r (List.mem_of_getElem? hi)]
    have := hcount i r hi
    rw [h0, Nat.zero_add] at this
    exact this

/-- A pipeline of two processes in the background, and one process in the foreground. -/
def twoPipelines : List Registration :=
  [{ pgid := 100, command := "sleep 9 | cat", background := true, members := [100, 101] },
    { pgid := 200, command := "vi", background := false, members := [200] }]

/-- Reports of the two in which no answer about a group helps: the other pipeline's group is given for a member, and none is
known for the others. A process that is no member ends among them. -/
def mixedReports : List Report :=
  [⟨fun _ => some 200, .stopped 101 .tstp⟩, ⟨fun _ => some 200, .exited 100 0⟩, ⟨fun _ => none, .exited 999 1⟩,
    ⟨fun _ => none, .continued 101⟩, ⟨fun _ => some 100, .exited 200 0⟩, ⟨fun _ => none, .signaled 101 .term false⟩]

open JobTable in
/-- The account of two pipelines: after two reports one member of the first is left, and after all of them it has ended once. -/
theorem accounting_of_two_pipelines :
    Registration.Family twoPipelines ∧ Admissible twoPipelines [] mixedReports ∧
    (∀ j, ((registerAll {} twoPipelines).account (mixedReports.take 2)).1.find? 1 = some j → j.live = 1) ∧
    ((registerAll {} twoPipelines).account (mixedReports.take 2)).2.countP (Notice.isEndOf 1) = 0 ∧
    ((registerAll {} twoPipelines).account mixedReports).2.countP (Notice.isEndOf 1) = 1 := by
  have hf : Registration.Family twoPipelines := ⟨by decide, by decide, by simp [twoPipelines]⟩
  have hr : Admissible twoPipelines [] mixedReports := by
    refine ⟨?_, ?_, ?_, ?_, ?_, ?_, trivial⟩ <;> rintro pid ⟨⟩ <;> decide
  obtain ⟨-, hlive, hnone⟩ :=
    accounting_of_reports twoPipelines hf mixedReports hr (mixedReports.take 2) (List.take_prefix _ _) 0 _ rfl
  obtain ⟨-, -, hone⟩ := accounting_of_reports twoPipelines hf mixedReports hr mixedReports (List.prefix_refl _) 0 _ rfl
  exact ⟨hf, hr, hlive, hnone, hone⟩

end JobShell
