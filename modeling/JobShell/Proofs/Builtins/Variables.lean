import JobShell.Builtin.Variables
import JobShell.Proofs.Sessions.Frames
import Mathlib.Data.List.TakeWhile

/-!
# The variables that arguments ask for

`export` and `unset` go through their arguments in the same way (`VariableCommand`): one that asks for a change has it made, any other is
reported. The system makes a change only if it is allowed and ends the shell otherwise (`Environment.change?`). No argument asks for a change
that is not (`allowed_of_exports`, `allowed_of_unsets`), so the changes are all made, and each variable has the value of the last change of it
or, if there is none, the one it had (`variables_of_arguments`).
-/

namespace JobShell

open Act

variable {σ : Type}

/-- The text can be the name of a variable: it is not empty and holds neither `=` nor NUL. -/
def IsVariableName (name : String) : Prop := name ≠ "" ∧ '=' ∉ name.toList ∧ '\x00' ∉ name.toList

instance (name : String) : Decidable (IsVariableName name) := inferInstanceAs (Decidable (_ ∧ _))

/-- A change of a variable. -/
inductive VariableChange where
  | set (name value : String)
  | remove (name : String)
  deriving DecidableEq

namespace VariableChange

/-- The variable that is changed. -/
def name : VariableChange → String
  | set name _ => name
  | remove name => name

/-- The value of the variable after the change. -/
def value? : VariableChange → Option String
  | set _ value => some value
  | remove _ => none

/-- The system makes such a change. -/
def Allowed : VariableChange → Prop
  | set name value => IsVariableName name ∧ '\x00' ∉ value.toList
  | remove name => IsVariableName name

instance : DecidablePred Allowed
  | set name _ => inferInstanceAs (Decidable (IsVariableName name ∧ _))
  | remove name => inferInstanceAs (Decidable (IsVariableName name))

end VariableChange

/-- The environment after a change. -/
def Environment.changed (e : Environment) : VariableChange → Environment
  | .set name value => e.set name value
  | .remove name => e.remove name

/-- The environment after a change that is asked of the system. One that is not allowed ends the shell. -/
def Environment.change? (e : Environment) (change : VariableChange) : Option Environment :=
  if change.Allowed then some (e.changed change) else none

/-- A command on variables: the change that an argument asks for, what is said of an argument that asks for none, and what is said without
arguments. -/
structure VariableCommand where
  Asks : String → VariableChange → Prop
  refusal : String → String
  usage : String

/-- An argument asks `export` for an assignment if its first `=` parts a name that is not empty from a value, and there is no NUL in it. -/
def VariableCommand.exports : VariableCommand where
  Asks arg change := ∃ name value, change = .set name value ∧ arg = name ++ "=" ++ value ∧ '=' ∉ name.toList ∧
    name ≠ "" ∧ '\x00' ∉ name.toList ∧ '\x00' ∉ value.toList
  refusal arg := "export: " ++ arg ++ ": invalid assignment"
  usage := "export: usage: export NAME=value..."

/-- An argument asks `unset` for a removal if it is a name. -/
def VariableCommand.unsets : VariableCommand where
  Asks arg change := change = .remove arg ∧ IsVariableName arg
  refusal arg := "unset: " ++ arg ++ ": invalid variable name"
  usage := "unset: missing variable name"

/-- The changes that arguments ask for, and what is said of the others, each in the order of the arguments. -/
inductive VariableCommand.Reads (c : VariableCommand) : List String → List VariableChange → List String → Prop
  | done : c.Reads [] [] []
  | asked {arg : String} {args : List String} {change : VariableChange} {changes : List VariableChange} {errors : List String}
      (asks : c.Asks arg change) (rest : c.Reads args changes errors) : c.Reads (arg :: args) (change :: changes) errors
  | refused {arg : String} {args : List String} {changes : List VariableChange} {errors : List String}
      (asks : ∀ change, ¬c.Asks arg change) (rest : c.Reads args changes errors) :
      c.Reads (arg :: args) changes (c.refusal arg :: errors)

/-- A command has made these changes for its arguments, and nothing else, and has reported these errors. -/
structure VariableCommand.Makes (c : VariableCommand) (args : List String) (s : Session σ) (r : CommandResult × Session σ)
    (changes : List VariableChange) (errors : List String) : Prop where
  read : c.Reads args changes errors
  allowed : ∀ change ∈ changes, change.Allowed
  made : changes.foldlM Environment.change? s.environment = some r.2.environment
  values : ∀ name, r.2.environment.get? name = match changes.reverse.find? (·.name = name) with
    | some change => change.value?
    | none => s.environment.get? name
  kept : r.2 = { s with environment := r.2.environment }
  answer : r.1 = if args = [] then .failure 1 c.usage
    else { code := if errors = [] then 0 else 1, err := "\n".intercalate errors }

namespace VariablesAux

variable {arg name value : String} {change : VariableChange} {c : VariableCommand}

/-! ### Changes -/

/-- A changed variable has its new value, and every other one the value it had. -/
theorem get?_changed (e : Environment) (change : VariableChange) (name : String) :
    (e.changed change).get? name = if change.name = name then change.value? else e.get? name := by
  cases change with
  | set changed value =>
    rw [Environment.changed, Environment.get?_set]
    simp only [VariableChange.name, VariableChange.value?, eq_comm]
  | remove changed =>
    rw [Environment.changed, Environment.get?_remove]
    simp only [VariableChange.name, VariableChange.value?, eq_comm]

/-- After changes a variable has the value of the last change of it. -/
theorem get?_foldl_changed (changes : List VariableChange) (e : Environment) (name : String) :
    (changes.foldl Environment.changed e).get? name = match changes.reverse.find? (·.name = name) with
      | some change => change.value?
      | none => e.get? name := by
  -- The induction takes the last change first: where it is of the variable, the earlier ones do not matter.
  rw [List.foldl_eq_foldr_reverse]
  generalize changes.reverse = later
  induction later with
  | nil => rfl
  | cons change earlier ih =>
    rw [List.foldr_cons, get?_changed, ih, List.find?_cons]
    by_cases hn : change.name = name <;> simp [hn]

/-- Changes that are allowed are all made. -/
theorem foldlM_change? {changes : List VariableChange} (allowed : ∀ change ∈ changes, change.Allowed) (e : Environment) :
    changes.foldlM Environment.change? e = some (changes.foldl Environment.changed e) := by
  induction changes generalizing e with
  | nil => rfl
  | cons change rest ih =>
    have first : e.change? change = some (e.changed change) := if_pos (allowed change List.mem_cons_self)
    rw [List.foldlM_cons, first]
    exact ih (fun other h => allowed other (List.mem_cons_of_mem _ h)) (e.changed change)

/-! ### Arguments -/

/-- An argument is parted by its first `=`. -/
theorem assignment?_of_parted (unparted : '=' ∉ name.toList) :
    assignment? (name ++ "=" ++ value) = if name.isEmpty || containsNul name || containsNul value then none else some (name, value) := by
  have letters : (name ++ "=" ++ value).toList = name.toList ++ '=' :: value.toList := by simp
  have before : ∀ c ∈ name.toList, (c != '=') = true := fun c hc => bne_iff_ne.2 fun h => unparted (h ▸ hc)
  have taken : (name.toList ++ '=' :: value.toList).takeWhile (· != '=') = name.toList := by
    rw [List.takeWhile_append_of_pos before]
    simp
  have left : (name.toList ++ '=' :: value.toList).dropWhile (· != '=') = '=' :: value.toList := by
    rw [List.dropWhile_append_of_pos before]
    rfl
  rw [assignment?, letters, taken, left]
  simp only [String.ofList_toList]

/-- An argument without `=` is no assignment. -/
theorem assignment?_of_unparted (unparted : '=' ∉ arg.toList) : assignment? arg = none := by
  have nothing : arg.toList.dropWhile (· != '=') = [] :=
    List.dropWhile_eq_nil_iff.2 fun c hc => bne_iff_ne.2 fun h => unparted (h ▸ hc)
  rw [assignment?, nothing]

/-- What an assignment is, and its name and value. -/
theorem assignment?_eq_some_iff : assignment? arg = some (name, value) ↔
    arg = name ++ "=" ++ value ∧ '=' ∉ name.toList ∧ name ≠ "" ∧ '\x00' ∉ name.toList ∧ '\x00' ∉ value.toList := by
  constructor
  · intro h
    by_cases parted : '=' ∈ arg.toList
    · obtain ⟨before, after, letters, unparted⟩ := List.eq_append_cons_of_mem parted
      obtain rfl : arg = String.ofList before ++ "=" ++ String.ofList after := String.toList_inj.1 (by simp [letters])
      rw [assignment?_of_parted (by rwa [String.toList_ofList])] at h
      split at h
      next => cases h
      next valid =>
        obtain ⟨rfl, rfl⟩ := Prod.mk.inj (Option.some.inj h)
        simpa [containsNul, unparted, and_assoc] using valid
    · cases (assignment?_of_unparted parted).symm.trans h
  · rintro ⟨rfl, unparted, some_name, nulless, nulless'⟩
    rw [assignment?_of_parted unparted, if_neg]
    simp [containsNul, some_name, nulless, nulless']

theorem isRemovableName_iff : isRemovableName name = true ↔ IsVariableName name := by
  simp [isRemovableName, IsVariableName, containsNul, and_assoc]

/-- Every change that an argument asks for is allowed. -/
theorem allowed_of_exports (h : VariableCommand.exports.Asks arg change) : change.Allowed := by
  obtain ⟨name, value, rfl, -, unparted, some_name, nulless, nulless'⟩ := h
  exact ⟨⟨some_name, unparted, nulless⟩, nulless'⟩

theorem allowed_of_unsets (h : VariableCommand.unsets.Asks arg change) : change.Allowed := by
  obtain ⟨rfl, hn⟩ := h
  exact hn

/-! ### Commands -/

section

variable {reads : String → Option VariableChange}

/-- A function that tells what each argument asks for sorts them all. -/
theorem reads_filterMap (hc : ∀ arg change, reads arg = some change ↔ c.Asks arg change) (args : List String) :
    c.Reads args (args.filterMap reads) ((args.filter fun a => (reads a).isNone).map c.refusal) := by
  induction args with
  | nil => exact .done
  | cons arg rest ih =>
    cases ha : reads arg with
    | some change =>
      rw [List.filterMap_cons_some ha, List.filter_cons_of_neg (by simp [ha])]
      exact .asked ((hc arg change).1 ha) ih
    | none =>
      rw [List.filterMap_cons_none ha, List.filter_cons_of_pos (by simp [ha]), List.map_cons]
      refine .refused (fun change asks => ?_) ih
      cases ha.symm.trans ((hc arg change).2 asks)

/-- A command that makes the changes its arguments ask for, one after the other, and reports the rest. -/
theorem makes_of_reads (hc : ∀ arg change, reads arg = some change ↔ c.Asks arg change)
    (ha : ∀ arg change, c.Asks arg change → change.Allowed) {args : List String} {s : Session σ} {r : CommandResult × Session σ}
    (hr : r = (if args = [] then .failure 1 c.usage else .ofErrors ((args.filter fun a => (reads a).isNone).map c.refusal),
      { s with environment := (args.filterMap reads).foldl Environment.changed s.environment })) :
    ∃ changes errors, c.Makes args s r changes errors := by
  have allowed : ∀ change ∈ args.filterMap reads, change.Allowed := by
    intro change mem
    obtain ⟨arg, -, asked⟩ := List.mem_filterMap.1 mem
    exact ha arg change ((hc arg change).1 asked)
  subst hr
  refine ⟨_, _, reads_filterMap hc args, allowed, foldlM_change? allowed _, fun name => get?_foldl_changed _ _ name, rfl, ?_⟩
  dsimp only
  generalize (args.filter fun a => (reads a).isNone).map c.refusal = errors
  cases errors <;> rfl

end

/-- What an argument asks `export` for. -/
def exported? (arg : String) : Option VariableChange := (assignment? arg).map fun v => .set v.1 v.2

/-- What an argument asks `unset` for. -/
def unset? (arg : String) : Option VariableChange := if isRemovableName arg then some (.remove arg) else none

theorem exported?_eq_some_iff : exported? arg = some change ↔ VariableCommand.exports.Asks arg change := by
  rw [exported?, Option.map_eq_some_iff]
  constructor
  · rintro ⟨⟨name, value⟩, h, rfl⟩
    exact ⟨name, value, rfl, assignment?_eq_some_iff.1 h⟩
  · rintro ⟨name, value, rfl, h⟩
    exact ⟨(name, value), assignment?_eq_some_iff.2 h, rfl⟩

theorem unset?_eq_some_iff : unset? arg = some change ↔ VariableCommand.unsets.Asks arg change := by
  rw [unset?, Option.ite_none_right_eq_some, isRemovableName_iff, and_comm, Option.some.injEq, eq_comm]
  rfl

/-- The assignments among the arguments are made one after the other. -/
theorem assignAll_eq (e : Environment) (args : List String) : e.assignAll args = (args.filterMap exported?).foldl Environment.changed e := by
  have assignments : args.filterMap exported? = (args.filterMap assignment?).map fun v => .set v.1 v.2 := List.map_filterMap.symm
  rw [assignments, List.foldl_map]
  rfl

/-- The names among the arguments are removed one after the other. -/
theorem removeAll_eq (e : Environment) (args : List String) : e.removeAll args = (args.filterMap unset?).foldl Environment.changed e := by
  have removals : args.filterMap unset? = (args.filter isRemovableName).map .remove := by
    rw [← List.filterMap_eq_filter, List.map_filterMap]
    congr 1
    funext arg
    rw [unset?, Option.guard]
    split <;> rfl
  rw [removals, List.foldl_map]
  rfl

/-- `export` makes the assignments among its arguments. -/
theorem makes_exportAll (args : List String) (s : Session σ) :
    ∃ changes errors, VariableCommand.exports.Makes args s (exportAll args s) changes errors := by
  refine makes_of_reads (fun _ _ => exported?_eq_some_iff) (fun _ _ => allowed_of_exports) ?_
  have others : (fun a => (exported? a).isNone) = fun a => (assignment? a).isNone := funext fun a => Option.isNone_map
  rw [others, ← assignAll_eq]
  cases args <;> rfl

/-- `unset` makes the removals that its arguments name. -/
theorem makes_unsetAll (args : List String) (s : Session σ) :
    ∃ changes errors, VariableCommand.unsets.Makes args s (unsetAll args s) changes errors := by
  refine makes_of_reads (fun _ _ => unset?_eq_some_iff) (fun _ _ => allowed_of_unsets) ?_
  have others : (fun a => (unset? a).isNone) = fun a => !isRemovableName a := by
    funext a
    rw [unset?]
    cases isRemovableName a <;> rfl
  rw [others, ← removeAll_eq]
  cases args <;> rfl

/-- A change that an argument asks for is among the ones that are made. -/
theorem exists_change_of_mem {args errors : List String} {changes : List VariableChange} (h : c.Reads args changes errors)
    (mem : arg ∈ args) (asks : c.Asks arg change) : ∃ change ∈ changes, c.Asks arg change := by
  induction h with
  | done => cases mem
  | asked first _ ih =>
    obtain rfl | later := List.mem_cons.1 mem
    · exact ⟨_, List.mem_cons_self, first⟩
    · obtain ⟨change, found, asked⟩ := ih later
      exact ⟨change, List.mem_cons_of_mem _ found, asked⟩
  | refused none _ ih =>
    obtain rfl | later := List.mem_cons.1 mem
    · exact absurd asks (none change)
    · exact ih later

/-- A change that is made is one that some argument asks for. -/
theorem exists_arg_of_mem {args errors : List String} {changes : List VariableChange} (h : c.Reads args changes errors)
    (mem : change ∈ changes) : ∃ arg, c.Asks arg change := by
  induction h with
  | done => cases mem
  | asked first _ ih =>
    obtain rfl | later := List.mem_cons.1 mem
    · exact ⟨_, first⟩
    · exact ih later
  | refused _ _ ih => exact ih mem

/-- A variable that `unset` is asked to remove is not there afterwards. -/
theorem get?_unsetAll {names : List String} (s : Session σ) (mem : name ∈ names) (hn : IsVariableName name) :
    (unsetAll names s).2.environment.get? name = none := by
  obtain ⟨changes, errors, made⟩ := makes_unsetAll names s
  obtain ⟨change, found, rfl, -⟩ := exists_change_of_mem made.read mem ⟨rfl, hn⟩
  rw [made.values]
  cases last : changes.reverse.find? (·.name = name) with
  | none =>
    have unnamed := List.find?_eq_none.1 last (.remove name) (List.mem_reverse.2 found)
    exact absurd (decide_eq_true rfl) unnamed
  | some change =>
    obtain ⟨arg, rfl, -⟩ := exists_arg_of_mem made.read (List.mem_reverse.1 (List.mem_of_find?_eq_some last))
    rfl

end VariablesAux

open VariablesAux

/-- `export` makes the assignments among its arguments, and `unset` removes the variables that its arguments name, in order and whatever the
other arguments are. Every change is allowed, so none of them ends the shell. A variable that is not named keeps its value, and every other
argument is reported. What has been exported can be removed: after `unset` no variable named is there. -/
theorem variables_of_arguments (args : List String) (s : Session σ) :
    (∃ changes errors, VariableCommand.exports.Makes args s (exportAll args s) changes errors) ∧
    (∃ changes errors, VariableCommand.unsets.Makes args s (unsetAll args s) changes errors) ∧
    ∀ names, ∀ name ∈ names, IsVariableName name → (unsetAll names (exportAll args s).2).2.environment.get? name = none :=
  ⟨makes_exportAll args s, makes_unsetAll args s, fun _ _ mem hn => get?_unsetAll _ mem hn⟩

/-- A variable is set twice between two arguments that are no assignments, and removed before one that is no name. -/
theorem variables_of_arguments_mixed :
    let s : Session Unit := { world := (), environment := [("A", "0"), ("B", "b")] }
    let args := ["=oops", "A=1", "A=x=y", "C"]
    let t := exportAll args s
    (∃ changes errors, VariableCommand.exports.Makes args s t changes errors) ∧
      t.1 = .failure 1 "export: =oops: invalid assignment\nexport: C: invalid assignment" ∧
      t.2.environment = [("A", "x=y"), ("B", "b")] ∧ "A" ∈ ["A", "A=2"] ∧ IsVariableName "A" ∧
      (unsetAll ["A", "A=2"] t.2).2.environment.get? "A" = none := by
  intro s args t
  have mem : "A" ∈ ["A", "A=2"] := by decide
  have named : IsVariableName "A" := by decide
  obtain ⟨exported, -, removed⟩ := variables_of_arguments args s
  exact ⟨exported, by decide +kernel, by decide +kernel, mem, named, removed ["A", "A=2"] "A" mem named⟩

end JobShell
