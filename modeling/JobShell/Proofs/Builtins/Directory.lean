import JobShell.Proofs.Sessions.Operations

/-!
# The working directory and its variables

`cd` keeps three things in step: the working directory, `PWD` and `OLDPWD`. What the system has to do for that is little
(`System.FixedDirectories`): a directory that cannot be entered is not entered, and a working directory has a name that leads to it
from everywhere. Then a `cd` either does nothing or goes from one directory to the next (`cd_cases`), and once one has gone anywhere the
two variables name the directory where the shell is and the one where it was, so that `cd -` goes back and forth between the two
(`directories_in_step`).
-/

namespace JobShell

open Act

variable {σ : Type} {S : System σ} {fixed : σ → Prop}

/-- The states of a system whose directories stay as they are. The working directory has a name at any time, a directory that cannot be
entered leaves the working directory as it was, and the name of a working directory leads to it from everywhere. -/
structure System.FixedDirectories (S : System σ) (fixed : σ → Prop) : Prop where
  kept : ∀ {w}, fixed w → ∀ path, fixed (S.changeDirectory path w).2
  named : ∀ {w}, fixed w → ∃ dir, S.workingDirectory w = .ok dir
  refused : ∀ {w path e}, fixed w → (S.changeDirectory path w).1 = .error e →
    S.workingDirectory (S.changeDirectory path w).2 = S.workingDirectory w
  leads : ∀ {v w dir}, fixed v → fixed w → S.workingDirectory v = .ok dir →
    (S.changeDirectory dir w).1 = .ok () ∧ S.workingDirectory (S.changeDirectory dir w).2 = .ok dir

/-- Runs `cd` with one list of operands after the other; gives the answers. -/
def Act.cdEach (S : System σ) : List (List String) → Act σ (List CommandResult)
  | [] => pure []
  | operands :: rest => do
    let result ← cd S operands
    return result :: (← cdEach S rest)

/-- The shell is in the directory `now`, as `PWD` says, and was in the directory `before`, as `OLDPWD` says. -/
structure Session.InStep (S : System σ) (s : Session σ) (now before : String) : Prop where
  directory : S.workingDirectory s.world = .ok now
  current : s.environment.get? "PWD" = some now
  previous : s.environment.get? "OLDPWD" = some before

/-- `cd -` goes from the directory `now` to the directory `before` and prints its name, and another `cd -` goes to `now` again, whatever
operands follow. -/
def Session.GoesBack (S : System σ) (s : Session σ) (now before : String) : Prop :=
  ∀ more more',
    let back := cd S ("-" :: more) s
    let again := cd S ("-" :: more') back.2
    back.1 = .success (before ++ "\n") ∧ back.2.InStep S before now ∧ again.1 = .success (now ++ "\n") ∧ again.2.InStep S now before

/-- The text is the name that a working directory has. -/
def System.Names (S : System σ) (fixed : σ → Prop) (dir : String) : Prop := ∃ w, fixed w ∧ S.workingDirectory w = .ok dir

namespace DirectoryAux

variable {s t : Session σ} {operands : List String} {target now before name : String}

/-! ### One change of directory -/

/-- The variables after a change of directory. -/
theorem get?_moved (e : Environment) (before now name : String) :
    (e.moved (.ok before) now).get? name =
      if name = "PWD" then some now else if name = "OLDPWD" then some before else e.get? name := by
  rw [Environment.moved, Environment.get?_set, Environment.get?_set]

/-- Where `cd` does not know where to go, it does nothing. -/
theorem cd_of_untargeted {message : String} (ht : cdTarget s.environment operands = .error message) :
    cd S operands s = (.failure 1 message, s) := by
  rw [cd, bind_apply, get_apply, ht]
  rfl

/-- Where the target cannot be entered, nothing but that was tried. -/
theorem cd_of_refused {e : FileError} (ht : cdTarget s.environment operands = .ok target)
    (hr : (S.changeDirectory target s.world).1 = .error e) :
    cd S operands s =
      (.failure 1 ("cd: " ++ target ++ ": " ++ e.message), { s with world := (S.changeDirectory target s.world).2 }) := by
  rw [cd, bind_apply, get_apply, ht]
  dsimp only
  rw [bind_apply, bind_apply]
  have asked : ask (S.changeDirectory target) s = (.error e, { s with world := (S.changeDirectory target s.world).2 }) := by
    rw [← hr]
    rfl
  have looked : (look S.workingDirectory s).2 = s := rfl
  rw [looked, asked]
  rfl

/-- Where the target is entered, the variables are set to where the shell is and where it was. -/
theorem cd_of_entered (ht : cdTarget s.environment operands = .ok target) (hb : S.workingDirectory s.world = .ok before)
    (hr : (S.changeDirectory target s.world).1 = .ok ())
    (hn : S.workingDirectory (S.changeDirectory target s.world).2 = .ok now) :
    cd S operands s = (.success (if operands.head? = some "-" then now ++ "\n" else ""),
      { s with world := (S.changeDirectory target s.world).2, environment := s.environment.moved (.ok before) now }) := by
  rw [cd, bind_apply, get_apply, ht]
  dsimp only
  rw [bind_apply, bind_apply]
  have asked : ask (S.changeDirectory target) s = (.ok (), { s with world := (S.changeDirectory target s.world).2 }) := by
    rw [← hr]
    rfl
  have looked : look S.workingDirectory s = (.ok before, s) := by
    rw [← hb]
    rfl
  rw [looked, asked]
  dsimp only
  rw [bind_apply]
  have found : look S.workingDirectory { s with world := (S.changeDirectory target s.world).2 } =
      (.ok now, { s with world := (S.changeDirectory target s.world).2 }) := by
    rw [← hn]
    rfl
  rw [found]
  rfl

/-! ### Steps -/

variable (hS : S.FixedDirectories fixed)
include hS

/-- A `cd` either fails, and leaves the directory and the variables as they were, or succeeds, and then the variables tell where the shell
is and where it was. -/
theorem cd_cases (hs : fixed s.world) (operands : List String) :
    fixed (cd S operands s).2.world ∧
    (((cd S operands s).1.code ≠ 0 ∧ S.workingDirectory (cd S operands s).2.world = S.workingDirectory s.world ∧
        (cd S operands s).2.environment = s.environment) ∨
      ((cd S operands s).1.code = 0 ∧ ∃ now before, S.workingDirectory s.world = .ok before ∧
        (cd S operands s).2.InStep S now before ∧
        ∀ name, name ≠ "PWD" → name ≠ "OLDPWD" → (cd S operands s).2.environment.get? name = s.environment.get? name)) := by
  cases ht : cdTarget s.environment operands with
  | error message =>
    rw [cd_of_untargeted ht]
    exact ⟨hs, .inl ⟨Int.one_ne_zero, rfl, rfl⟩⟩
  | ok target =>
    have kept := hS.kept hs target
    cases hr : (S.changeDirectory target s.world).1 with
    | error e =>
      rw [cd_of_refused ht hr]
      exact ⟨kept, .inl ⟨Int.one_ne_zero, hS.refused hs hr, rfl⟩⟩
    | ok =>
      obtain ⟨before, hb⟩ := hS.named hs
      obtain ⟨now, hn⟩ := hS.named kept
      rw [cd_of_entered ht hb hr hn]
      refine ⟨kept, .inr ⟨rfl, now, before, hb, ⟨hn, ?_, ?_⟩, fun name h h' => ?_⟩⟩
      · rw [get?_moved, if_pos rfl]
      · rw [get?_moved, if_neg (by decide), if_pos rfl]
      · rw [get?_moved, if_neg h, if_neg h']

/-- To go back is to go where the shell was and to tell so. -/
theorem cd_back (hs : fixed s.world) (h : s.InStep S now before) (hb : S.Names fixed before) (more : List String) :
    (cd S ("-" :: more) s).1 = .success (before ++ "\n") ∧ (cd S ("-" :: more) s).2.InStep S before now ∧
      fixed (cd S ("-" :: more) s).2.world := by
  obtain ⟨w, hw, named⟩ := hb
  have target : cdTarget s.environment ("-" :: more) = .ok before := by
    rw [cdTarget, h.previous]
  obtain ⟨entered, there⟩ := hS.leads hw hs named
  rw [cd_of_entered target h.directory entered there]
  refine ⟨rfl, ⟨there, ?_, ?_⟩, hS.kept hs before⟩
  · rw [get?_moved, if_pos rfl]
  · rw [get?_moved, if_neg (by decide), if_pos rfl]

/-- Where the shell has come from a directory, `cd -` goes back and forth. -/
theorem goesBack_of_inStep (hs : fixed s.world) (h : s.InStep S now before) (hb : S.Names fixed before) : s.GoesBack S now before := by
  intro more more' back again
  obtain ⟨said, there, still⟩ := cd_back hS hs h hb more
  obtain ⟨said', here, -⟩ := cd_back hS still there ⟨s.world, hs, h.directory⟩ more'
  exact ⟨said, there, said', here⟩

/-! ### Runs -/

/-- The directories stay fixed. -/
theorem fixed_cdEach (commands : List (List String)) (hs : fixed s.world) : fixed (cdEach S commands s).2.world := by
  induction commands generalizing s with
  | nil => exact hs
  | cons operands rest ih => exact ih (cd_cases hS hs operands).1

/-- After a `cd` the variables are in step, if it succeeded or if they were before it. -/
theorem inStep_cd (hs : fixed s.world) (operands : List String)
    (h : (cd S operands s).1.code = 0 ∨ ∃ now before, s.InStep S now before ∧ S.Names fixed before) :
    ∃ now before, (cd S operands s).2.InStep S now before ∧ S.Names fixed before := by
  obtain ⟨-, ⟨failed, directory, environment⟩ | ⟨-, now, before, hb, there, -⟩⟩ := cd_cases hS hs operands
  · obtain succeeded | ⟨now, before, here, named⟩ := h
    · exact absurd succeeded failed
    · exact ⟨now, before, ⟨directory.trans here.directory, environment ▸ here.current, environment ▸ here.previous⟩, named⟩
  · exact ⟨now, before, there, s.world, hs, hb⟩

/-- After a run the variables are in step, if some `cd` of it succeeded or if they were before it. -/
theorem inStep_cdEach (commands : List (List String)) (hs : fixed s.world)
    (h : (∃ a ∈ (cdEach S commands s).1, a.code = 0) ∨ ∃ now before, s.InStep S now before ∧ S.Names fixed before) :
    ∃ now before, (cdEach S commands s).2.InStep S now before ∧ S.Names fixed before := by
  induction commands generalizing s with
  | nil =>
    obtain ⟨a, none, -⟩ | h := h
    · cases none
    · exact h
  | cons operands rest ih =>
    have still := (cd_cases hS hs operands).1
    have first : cdEach S (operands :: rest) s =
      ((cd S operands s).1 :: (cdEach S rest (cd S operands s).2).1, (cdEach S rest (cd S operands s).2).2) := rfl
    rw [first] at h ⊢
    apply ih still
    obtain ⟨a, mem, succeeded⟩ | h := h
    · obtain rfl | later := List.mem_cons.1 mem
      · exact .inr (inStep_cd hS hs operands (.inl succeeded))
      · exact .inl ⟨a, later, succeeded⟩
    · exact .inr (inStep_cd hS hs operands (.inr h))

end DirectoryAux

open DirectoryAux

/-- The working directory, `PWD` and `OLDPWD` are in step, over directories that stay as they are and after any number of `cd` with any
operands. One that fails leaves all three as they were. After one that succeeds `PWD` is the new directory and `OLDPWD` the one before, all
other variables are as they were, and `cd -` goes back and forth between the two. So it does at any time later, once any `cd` has
succeeded. -/
theorem directories_in_step (hS : S.FixedDirectories fixed) {s : Session σ} (hs : fixed s.world) (commands : List (List String)) :
    let t := (cdEach S commands s).2
    (∀ operands,
      let r := cd S operands t
      (r.1.code ≠ 0 → S.workingDirectory r.2.world = S.workingDirectory t.world ∧ r.2.environment = t.environment) ∧
      (r.1.code = 0 → ∃ now before, S.workingDirectory t.world = .ok before ∧ r.2.InStep S now before ∧ r.2.GoesBack S now before ∧
        ∀ name, name ≠ "PWD" → name ≠ "OLDPWD" → r.2.environment.get? name = t.environment.get? name)) ∧
    ((∃ a ∈ (cdEach S commands s).1, a.code = 0) → ∃ now before, t.InStep S now before ∧ t.GoesBack S now before) := by
  intro t
  have ht : fixed t.world := fixed_cdEach hS commands hs
  refine ⟨fun operands => ?_, fun succeeded => ?_⟩
  · obtain ⟨still, ⟨failed, unmoved⟩ | ⟨succeeded, now, before, hb, there, others⟩⟩ := cd_cases hS ht operands
    · exact ⟨fun _ => unmoved, fun succeeded => absurd succeeded failed⟩
    · refine ⟨fun failed => absurd succeeded failed, fun _ => ⟨now, before, hb, there, ?_, others⟩⟩
      exact goesBack_of_inStep hS still there ⟨t.world, ht, hb⟩
  · obtain ⟨now, before, here, named⟩ := inStep_cdEach hS commands hs (.inl succeeded)
    exact ⟨now, before, here, goesBack_of_inStep hS ht here named⟩

/-- A system with a map: from a directory, a path leads to another directory or nowhere. -/
def System.mapped (leadsTo : String → String → Option String) : System (Unit × String) :=
  { System.idle.beside String with
    workingDirectory := fun w => .ok w.2
    changeDirectory := fun path w =>
      match leadsTo w.2 path with
      | some dir => (.ok (), (w.1, dir))
      | none => (.error .notFound, w) }

/-- A path that leads somewhere on the map is followed. -/
theorem System.mapped_of_some {leadsTo : String → String → Option String} {w : Unit × String} {path dir : String}
    (h : leadsTo w.2 path = some dir) : (System.mapped leadsTo).changeDirectory path w = (.ok (), (w.1, dir)) := by
  simp only [System.mapped, h]

/-- A path that leads nowhere is refused. -/
theorem System.mapped_of_none {leadsTo : String → String → Option String} {w : Unit × String} {path : String}
    (h : leadsTo w.2 path = none) : (System.mapped leadsTo).changeDirectory path w = (.error .notFound, w) := by
  simp only [System.mapped, h]

/-- The directories of a map are fixed, if no path leads out of it and the name of each of its directories leads there from everywhere. -/
theorem System.mapped_fixedDirectories {leadsTo : String → String → Option String} {places : List String}
    (closed : ∀ dir ∈ places, ∀ path there, leadsTo dir path = some there → there ∈ places)
    (named : ∀ dir ∈ places, ∀ there ∈ places, leadsTo dir there = some there) :
    (System.mapped leadsTo).FixedDirectories fun w => w.2 ∈ places where
  kept {w} hw path := by
    cases h : leadsTo w.2 path with
    | none => rwa [mapped_of_none h]
    | some there =>
      rw [mapped_of_some h]
      exact closed w.2 hw path there h
  named {w} _ := ⟨w.2, rfl⟩
  refused {w path e} _ hr := by
    cases h : leadsTo w.2 path with
    | none => rw [mapped_of_none h]
    | some there =>
      rw [mapped_of_some h] at hr
      cases hr
  leads {v w dir} hv hw hd := by
    obtain rfl : v.2 = dir := Except.ok.inj hd
    rw [mapped_of_some (named w.2 hw v.2 hv)]
    exact ⟨rfl, rfl⟩

/-- A map with a link: from everywhere the path `/there` leads to the directory `/home`. -/
def linkedMap (_dir path : String) : Option String :=
  if path = "/there" then some "/home" else if path ∈ ["/", "/home"] then some path else none

/-- On a map with a link, the shell goes to a directory by its link, then to one that is not there, then to a home directory that is not
set. `PWD` is the name of the directory and not of the link, and `cd -` goes back to where the shell started. -/
theorem directories_in_step_by_link :
    let S := System.mapped linkedMap
    let s : Session (Unit × String) := { world := ((), "/") }
    let ran := cdEach S [["/there"], ["/nowhere"], []] s
    (S.FixedDirectories fun w => w.2 ∈ ["/", "/home"]) ∧ s.world.2 ∈ ["/", "/home"] ∧ ran.1.map (·.code) = [0, 1, 1] ∧
      ran.2.InStep S "/home" "/" ∧ ran.2.GoesBack S "/home" "/" := by
  intro S s ran
  have hS : S.FixedDirectories fun w => w.2 ∈ ["/", "/home"] := by
    refine System.mapped_fixedDirectories (fun dir _ path there leads => ?_) (by decide)
    rw [linkedMap] at leads
    split at leads
    · obtain rfl := Option.some.inj leads
      decide
    · split at leads
      next known => exact Option.some.inj leads ▸ known
      next => cases leads
  have hs : s.world.2 ∈ ["/", "/home"] := by decide
  have codes : ran.1.map (·.code) = [0, 1, 1] := by decide +kernel
  have current : ran.2.environment.get? "PWD" = some "/home" := by decide +kernel
  have previous : ran.2.environment.get? "OLDPWD" = some "/" := by decide +kernel
  obtain ⟨now, before, here, back⟩ := (directories_in_step hS hs [["/there"], ["/nowhere"], []]).2 (by decide +kernel)
  obtain rfl := Option.some.inj (here.current.symm.trans current)
  obtain rfl := Option.some.inj (here.previous.symm.trans previous)
  exact ⟨hS, hs, codes, here, back⟩

end JobShell
