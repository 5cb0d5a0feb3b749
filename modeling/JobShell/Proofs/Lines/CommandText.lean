import JobShell.Proofs.Lines.Roles

/-!
# The text of a job

A job is shown by the line it was typed as, without the blanks around it and the mark for the background at its end. What is left out at
the end (`leftOut`) is taken off the characters of the line, whatever quotes are open and whatever stands after a backslash. So the text
means the commands of the line exactly if nothing is left out or the text leaves nothing open where it ends (`stages_commandText_iff`):
a quoted or escaped mark or blank at the end of a line is lost. And only an unbroken run of marks is left out, so that the text is still
for the background if there are marks before that run (`background_commandText_iff`).
-/

namespace JobShell

open Reading

/-- The characters of a line that are shown for a job. -/
def shown (line : String) : List Char := dropEndWhile isBlank (dropEndWhile (· == '&') (trimChars line.toList))

/-- The characters that are left out at the end of a line where it is shown for a job. -/
def leftOut (line : String) : List Char := (line.toList.dropWhile isBlank).drop (shown line).length

/-- How many ampersands of a line part stages. -/
def marksIn (line : String) : Nat := (Mode.roles {} line.toList).countP (·.2 = .ampersand)

namespace CommandTextAux

variable {line : String} {r : Reading} {m : Mode} {cs : List Char} {c : Char}

/-- The character is a blank or an ampersand. -/
def isMargin (c : Char) : Bool := isBlank c || c == '&'

/-! ### What is left out -/

/-- What is dropped at the end of characters. -/
theorem dropEndWhile_append (p : Char → Bool) (cs : List Char) : ∃ ds, cs = dropEndWhile p cs ++ ds ∧ ∀ c ∈ ds, p c = true := by
  refine ⟨(cs.reverse.takeWhile p).reverse, ?_, fun c hc => List.all_eq_true.1 List.all_takeWhile c (List.mem_reverse.1 hc)⟩
  rw [dropEndWhile, ← List.reverse_append, List.takeWhile_append_dropWhile, List.reverse_reverse]

/-- A line is blanks, then what is shown of it, then what is left out, which is blanks and ampersands. -/
theorem toList_eq (line : String) :
    ∃ blanks, (∀ c ∈ blanks, isBlank c = true) ∧ line.toList = blanks ++ (shown line ++ leftOut line) ∧
      ∀ c ∈ leftOut line, isMargin c = true := by
  obtain ⟨last, hlast, blank_last⟩ := dropEndWhile_append isBlank (line.toList.dropWhile isBlank)
  obtain ⟨marks, hmarks, ampersand⟩ := dropEndWhile_append (· == '&') (trimChars line.toList)
  obtain ⟨gap, hgap, blank_gap⟩ := dropEndWhile_append isBlank (dropEndWhile (· == '&') (trimChars line.toList))
  have cut : line.toList.dropWhile isBlank = shown line ++ (gap ++ (marks ++ last)) := by
    rw [hlast, show dropEndWhile isBlank (line.toList.dropWhile isBlank) = trimChars line.toList from rfl, hmarks, hgap, shown,
      List.append_assoc, List.append_assoc]
  have left : leftOut line = gap ++ (marks ++ last) := by rw [leftOut, cut, List.drop_left]
  refine ⟨line.toList.takeWhile isBlank, List.all_eq_true.1 List.all_takeWhile, ?_, fun c hc => ?_⟩
  · rw [left, ← cut, List.takeWhile_append_dropWhile]
  · rw [left, List.mem_append, List.mem_append] at hc
    rw [isMargin, Bool.or_eq_true]
    exact hc.elim (fun h => .inl (blank_gap c h)) fun h => h.elim (fun h => .inr (ampersand c h)) fun h => .inl (blank_last c h)

/-- Where something is shown of a line, the text is that. -/
theorem commandText_eq (h : shown line ≠ []) (p : Pipeline) : p.commandText line = String.ofList (shown line) := by
  rw [Pipeline.commandText]
  split
  · rename_i nothing
    exact absurd nothing h
  · rfl

/-! ### Blanks and ampersands at the end of a line -/

/-- Outside quotes a blank or an ampersand ends what was begun, and nothing else. -/
theorem step_margin (h : r.Plain) (hc : isMargin c = true) : (r.step c).Plain ∧ (r.step c).finish.stages = r.finish.stages := by
  have ended : ∀ {r : Reading}, r.Plain → r.finish.stages = r.stages ++ stageOf (r.words ++ wordOf r.word) := by
    intro r h
    rw [finish, if_neg (by simp [h.unescaped]), endStage_eq]
  by_cases hb : isBlank c = true
  · rw [step_blank h hb, ended h.endWord, ended h, endWord_eq]
    exact ⟨⟨h.unquoted, h.unescaped⟩, by simp [wordOf]⟩
  · obtain rfl : c = '&' := by simpa [isMargin, hb] using hc
    have plain : ({ r.endStage with background := true } : Reading).Plain := ⟨h.endStage.unquoted, h.endStage.unescaped⟩
    rw [step_ampersand h, ended plain, ended h, endStage_eq]
    exact ⟨⟨h.unquoted, h.unescaped⟩, by simp [wordOf, stageOf]⟩

/-- Outside quotes blanks and ampersands at the end of a line change no stage. -/
theorem finish_margin (h : r.Plain) (hcs : ∀ c ∈ cs, isMargin c = true) : (r.readAll cs).finish.stages = r.finish.stages := by
  induction cs generalizing r with
  | nil => rfl
  | cons c cs ih =>
    obtain ⟨plain, same⟩ := step_margin h (hcs c List.mem_cons_self)
    rw [readAll_cons, ih plain fun c hc => hcs c (List.mem_cons_of_mem _ hc), same]

/-- Outside quotes the ampersands among blanks and ampersands all part stages. -/
theorem countP_margin (hcs : ∀ c ∈ cs, isMargin c = true) : (Mode.roles {} cs).countP (·.2 = .ampersand) = cs.count '&' := by
  induction cs with
  | nil => rfl
  | cons c cs ih =>
    have rest := ih fun c hc => hcs c (List.mem_cons_of_mem _ hc)
    by_cases hb : isBlank c = true
    · have blank := Mode.role_of_isBlank hb
      have plain : Mode.next {} c = {} := Mode.next_of_unsilent (by rw [blank]; rfl)
      have other : c ≠ '&' := (ne_mark_of_isBlank hb).2.2.2.2
      rw [Mode.roles_cons, blank, plain, List.countP_cons_of_neg (by simp), rest, List.count_cons_of_ne other]
    · obtain rfl : c = '&' := by simpa [isMargin, hb] using hcs c List.mem_cons_self
      have plain : Mode.next {} '&' = {} := rfl
      rw [Mode.roles_cons, plain, List.countP_cons_of_pos (by decide), rest, List.count_cons_self]

/-- In quotes or after a backslash a blank or an ampersand belongs to the word. -/
theorem role_margin (hm : m ≠ {}) (hc : isMargin c = true) : m.role c = .letter ∧ c ≠ '\\' := by
  have other : c ≠ '\'' ∧ c ≠ '"' ∧ c ≠ '\\' := by
    by_cases hb : isBlank c = true
    · obtain ⟨h1, h2, h3, -⟩ := ne_mark_of_isBlank hb
      exact ⟨h1, h2, h3⟩
    · obtain rfl : c = '&' := by simpa [isMargin, hb] using hc
      decide
  obtain ⟨quoting, escaped⟩ := m
  refine ⟨?_, other.2.2⟩
  cases escaped with
  | true => rfl
  | false =>
    cases quoting with
    | none => exact absurd rfl hm
    | single => simp [Mode.role, other]
    | double => simp [Mode.role, other]

/-- In quotes or after a backslash, a line that goes on with a blank or an ampersand has other characters in its words than one that ends
there. -/
theorem letters_margin (hm : m ≠ {}) (hcs : ∀ c ∈ cs, isMargin c = true) (hne : cs ≠ []) :
    letters (m.marks cs) ≠ letters (m.marks []) := by
  obtain ⟨c, cs, rfl⟩ := List.exists_cons_of_ne_nil hne
  obtain ⟨letter, other⟩ := role_margin hm (hcs c List.mem_cons_self)
  have goes_on : letters (m.marks (c :: cs)) = c :: letters ((m.next c).marks cs) := by
    rw [Mode.marks_cons, letter, letters, List.filter_cons_of_pos (by simp)]
    rfl
  have ends : letters (m.marks []) = if m.escaped then ['\\'] else [] := by
    rw [Mode.marks, Mode.roles, List.nil_append, show m.after [] = m from rfl]
    split <;> rfl
  rw [goes_on, ends]
  split
  · simp [other]
  · simp

/-! ### The line without the blanks before it -/

/-- A line is read as it is without the blanks before it. -/
theorem scan_eq (line : String) : scan line.toList = (scan (shown line)).readAll (leftOut line) := by
  obtain ⟨blanks, hblanks, cut, -⟩ := toList_eq line
  have start : scan blanks = {} := readAll_blanks_of_nil ⟨rfl, rfl⟩ rfl hblanks
  have whole : scan line.toList = (scan blanks).readAll (shown line ++ leftOut line) := by
    rw [cut]
    exact readAll_append _ _ _
  rw [whole, start, readAll_append]
  rfl

/-- The marks of a line, without the blanks before it. -/
theorem letters_marks (line : String) :
    letters (Mode.marks {} line.toList) =
      letters (Mode.roles {} (shown line)) ++ letters ((scan (shown line)).mode.marks (leftOut line)) := by
  obtain ⟨blanks, hblanks, cut, -⟩ := toList_eq line
  obtain ⟨roles, ends⟩ := Mode.roles_blanks hblanks
  have none_kept : letters (blanks.map (·, Role.blank)) = [] := by simp [letters]
  rw [cut, Mode.marks_append, roles, ends, letters_append, none_kept, List.nil_append, Mode.marks_append, letters_append, mode_scan]

/-- A line of which nothing is shown has nothing to run. -/
theorem shown_ne_nil (h : (Pipeline.ofLine line).isEmpty = false) : shown line ≠ [] := by
  intro nothing
  obtain ⟨-, -, -, margin⟩ := toList_eq line
  have read : (scan line.toList).finish.stages = [] := by
    rw [scan_eq, nothing]
    exact finish_margin ⟨rfl, rfl⟩ margin
  rw [Pipeline.ofLine, Reading.pipeline, read] at h
  cases h

end CommandTextAux

open CommandTextAux

variable {line : String}

/-- The text of a job means the commands of the line that it was typed as exactly if nothing is left out at the end of the line or what is
shown leaves nothing open: then what is left out stands outside quotes and after no backslash. -/
theorem stages_commandText_iff (h : (Pipeline.ofLine line).isEmpty = false) :
    (Pipeline.ofLine ((Pipeline.ofLine line).commandText line)).stages = (Pipeline.ofLine line).stages ↔
      leftOut line = [] ∨ (scan (shown line)).Plain := by
  obtain ⟨-, -, -, margin⟩ := toList_eq line
  rw [commandText_eq (shown_ne_nil h)]
  have of_scan : (scan line.toList).finish.stages = (scan (shown line)).finish.stages →
      (Pipeline.ofLine (String.ofList (shown line))).stages = (Pipeline.ofLine line).stages := by
    intro same
    have stages : ∀ text : String, (Pipeline.ofLine text).stages = (scan text.toList).finish.stages.filterMap Stage.ofArguments? :=
      fun _ => rfl
    rw [stages, stages, String.toList_ofList, same]
  constructor
  · intro same
    refine Classical.byContradiction fun lost => ?_
    obtain ⟨some_left, not_plain⟩ := not_or.1 lost
    -- The words of the line and of the text are made of different characters.
    have characters : letters (Mode.marks {} (shown line)) = letters (Mode.marks {} line.toList) := by
      have text := toList_arguments (String.ofList (shown line))
      rwa [same, toList_arguments, String.toList_ofList, eq_comm] at text
    have text : Mode.marks {} (shown line) = Mode.roles {} (shown line) ++ (scan (shown line)).mode.marks [] := by
      rw [mode_scan, ← Mode.marks_append, List.append_nil]
    rw [letters_marks, text, letters_append, List.append_cancel_left_eq] at characters
    exact letters_margin (fun plain => not_plain (plain_iff.2 plain)) margin some_left characters.symm
  · rintro (nothing | plain)
    · exact of_scan (by rw [scan_eq, nothing, readAll_nil])
    · exact of_scan (by rw [scan_eq, finish_margin plain margin])

/-- Where the text of a job means the commands of its line, it is not for the background exactly if all marks of the line are left out. -/
theorem background_commandText_iff (h : (Pipeline.ofLine line).isEmpty = false) (hp : leftOut line = [] ∨ (scan (shown line)).Plain) :
    (Pipeline.ofLine ((Pipeline.ofLine line).commandText line)).background = false ↔ marksIn line = (leftOut line).count '&' := by
  obtain ⟨blanks, hblanks, cut, margin⟩ := toList_eq line
  obtain ⟨roles, ends⟩ := Mode.roles_blanks hblanks
  have left_out : ((scan (shown line)).mode.roles (leftOut line)).countP (·.2 = .ampersand) = (leftOut line).count '&' := by
    rcases hp with nothing | plain
    · rw [nothing]
      rfl
    · rw [plain_iff.1 plain, countP_margin margin]
  have marks : marksIn line = (Mode.roles {} (shown line)).countP (·.2 = .ampersand) + (leftOut line).count '&' := by
    have unmarked : (blanks.map (·, Role.blank)).countP (·.2 = .ampersand) = 0 := by simp
    rw [marksIn, cut, Mode.roles_append, roles, ends, List.countP_append, unmarked, Nat.zero_add, Mode.roles_append, List.countP_append,
      ← mode_scan, left_out]
  rw [commandText_eq (shown_ne_nil h), background_ofLine, String.toList_ofList, marks, Nat.add_eq_right, List.countP_eq_zero,
    List.any_eq_false]

/-- An escaped ampersand before the mark is lost with it, and of two marks with a blank between them one is left. -/
example :
    (Pipeline.ofLine "a \\&&").commandText "a \\&&" = "a \\" ∧ (Pipeline.ofLine "a \\&&").stages = [⟨"a", ["&"]⟩] ∧
    (Pipeline.ofLine "a \\").stages = [⟨"a", ["\\"]⟩] ∧
    (Pipeline.ofLine "a & &").commandText "a & &" = "a &" ∧ marksIn "a & &" = 2 ∧ leftOut "a & &" = [' ', '&'] := by decide +kernel

end JobShell
