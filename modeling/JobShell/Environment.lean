/-!
# Environments

An environment is a list of variables in the order in which they were first set. Setting a variable anew keeps its place;
removing it closes the gap. A variable has the value that it was set to last (`get?_set`), and none after it is removed
(`get?_remove`).
-/

namespace JobShell

/-- Variables and their values. -/
abbrev Environment := List (String × String)

namespace Environment

/-- The value of a variable. -/
def get? (e : Environment) (name : String) : Option String := e.lookup name

/-- The environment with a variable set. -/
def set (e : Environment) (name value : String) : Environment :=
  if e.any (·.1 == name) then e.map fun v => if v.1 == name then (name, value) else v
  else e ++ [(name, value)]

/-- The environment without a variable. -/
def remove (e : Environment) (name : String) : Environment := e.filter (·.1 != name)

/-- One line for each variable, its name and its value with `=` between them. -/
def text (e : Environment) : String := String.join (e.map fun v => v.1 ++ "=" ++ v.2 ++ "\n")

/-! ## What a variable is -/

@[simp] theorem get?_nil (name : String) : get? [] name = none := rfl

theorem get?_cons (v : String × String) (e : Environment) (name : String) :
    get? (v :: e) name = if name = v.1 then some v.2 else e.get? name := by
  rw [get?, List.lookup_cons]
  by_cases h : name = v.1
  · rw [h, beq_self_eq_true, if_pos rfl]
  · rw [beq_false_of_ne h, if_neg h]
    rfl

theorem get?_append_single (e : Environment) (v : String × String) (name : String) :
    get? (e ++ [v]) name = (e.get? name).or (get? [v] name) := List.lookup_append

/-- A variable that is not there has no value. -/
theorem get?_of_absent {e : Environment} {name : String} (h : e.any (·.1 == name) = false) : e.get? name = none := by
  induction e with
  | nil => rfl
  | cons v rest ih =>
    rw [List.any_cons, Bool.or_eq_false_iff, beq_eq_false_iff_ne] at h
    rw [get?_cons, if_neg (Ne.symm h.1), ih h.2]

/-- A variable that is there has the value that it is given, and every other one the value it had. -/
theorem get?_replaced (e : Environment) (name value other : String) :
    get? (e.map fun v => if v.1 == name then (name, value) else v) other =
      if other = name ∧ e.any (·.1 == name) then some value else e.get? other := by
  induction e with
  | nil => simp
  | cons v rest ih =>
    rw [List.map_cons, get?_cons, ih, get?_cons, List.any_cons]
    by_cases hv : v.1 = name
    · by_cases ho : other = name <;> simp [hv, ho]
    · have kept : (if v.1 == name then (name, value) else v) = v := if_neg (by simp [hv])
      rw [kept, beq_false_of_ne hv, Bool.false_or]
      by_cases ho : other = name
      · simp [ho, Ne.symm hv]
      · simp [ho]

/-- A variable has the value that it is set to, and every other one the value it had. -/
theorem get?_set (e : Environment) (name value other : String) :
    (e.set name value).get? other = if other = name then some value else e.get? other := by
  rw [set]
  split
  · rename_i present
    rw [get?_replaced, present]
    simp
  · rename_i absent
    rw [get?_append_single, get?_cons]
    by_cases ho : other = name
    · rw [if_pos ho, if_pos ho, ho, get?_of_absent (Bool.not_eq_true _ ▸ absent)]
      rfl
    · rw [if_neg ho, if_neg ho, get?_nil, Option.or_none]

/-- A variable that is removed is not there, and every other one has the value it had. -/
theorem get?_remove (e : Environment) (name other : String) :
    (e.remove name).get? other = if other = name then none else e.get? other := by
  rw [remove]
  induction e with
  | nil => simp [get?_nil]
  | cons v rest ih =>
    rw [get?_cons, List.filter_cons]
    by_cases hv : v.1 = name
    · rw [if_neg (by simp [hv]), ih]
      by_cases ho : other = name <;> simp [hv, ho]
    · rw [if_pos (by simp [hv]), get?_cons, ih]
      by_cases ho : other = name
      · simp [ho, Ne.symm hv]
      · simp [ho]

end Environment

end JobShell
