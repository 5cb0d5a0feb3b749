import JobShell.Proofs.Lines.Roles

/-!
# Lines that end early

A line may end in open quotes, with a backslash that waits for a character, or with both. It is read as the line that does not end early:
with another backslash, which the waiting one takes, and then with the quotes that close the open ones (`closed`). So a line has always the
arguments that its characters make up: put together in order they are the characters of the closed line without the quotes that open and
close, the backslashes that take a character, and the blanks, bars and ampersands that part words and stages.
-/

namespace JobShell

open Reading

/-- What a line that is read so far is to be closed with: a backslash for one that waits, then the quotes that are open. -/
def Reading.closing (r : Reading) : List Char :=
  (if r.escaped then ['\\'] else []) ++
    match r.quoting with
    | .none => []
    | .single => ['\'']
    | .double => ['"']

/-- The line with all that it leaves open closed. -/
def closed (line : String) : String := line ++ String.ofList (scan line.toList).closing

namespace EndingsAux

variable {r : Reading}

/-- What a line is closed with leaves nothing open. -/
theorem after_closing (r : Reading) : r.mode.after r.closing = {} := by
  obtain ⟨quoting, escaped, background, word, words, stages⟩ := r
  cases quoting <;> cases escaped <;> rfl

/-- What a line is closed with is no part of its segments, except for the backslash that waits at its end. -/
theorem segmentsIn_closing (r : Reading) (ms : List Marked) :
    segmentsIn (ms ++ r.mode.marks r.closing) = segmentsIn (ms ++ r.mode.marks []) := by
  obtain ⟨quoting, escaped, background, word, words, stages⟩ := r
  cases quoting with
  | none => cases escaped <;> rfl
  | single =>
    cases escaped with
    | false => exact segmentsIn_append_silent (x := ('\'', .quote)) rfl ms []
    | true =>
      have silent := segmentsIn_append_silent (x := ('\'', .quote)) rfl (ms ++ [('\\', .letter)]) []
      rwa [List.append_nil, List.append_assoc] at silent
  | double =>
    cases escaped with
    | false => exact segmentsIn_append_silent (x := ('"', .quote)) rfl ms []
    | true =>
      have silent := segmentsIn_append_silent (x := ('"', .quote)) rfl (ms ++ [('\\', .letter)]) []
      rwa [List.append_nil, List.append_assoc] at silent

/-- What a line is closed with does not mark it for the background. -/
theorem any_roles_closing (r : Reading) : (r.mode.roles r.closing).any (·.2 = .ampersand) = false := by
  obtain ⟨quoting, escaped, background, word, words, stages⟩ := r
  cases quoting <;> cases escaped <;> rfl

/-- The characters of the closed line. -/
theorem toList_closed (line : String) : (closed line).toList = line.toList ++ (scan line.toList).closing := by
  simp [closed]

/-- A closed line leaves nothing open. -/
theorem plain_closed (line : String) : (scan (closed line).toList).Plain := by
  rw [plain_iff, mode_scan, toList_closed, Mode.after_append, ← mode_scan, after_closing]

/-- A closed line has the segments of the line. -/
theorem segments_closed (line : String) : segments (closed line) = segments line := by
  have whole : Mode.marks {} line.toList = Mode.roles {} line.toList ++ (scan line.toList).mode.marks [] := by
    rw [mode_scan, ← Mode.marks_append, List.append_nil]
  rw [segments, segments, toList_closed, Mode.marks_append, ← mode_scan, segmentsIn_closing, whole]

/-- A closed line is for the background if the line is. -/
theorem background_closed (line : String) : (Pipeline.ofLine (closed line)).background = (Pipeline.ofLine line).background := by
  rw [background_ofLine, background_ofLine, toList_closed, Mode.roles_append, ← mode_scan, List.any_append, any_roles_closing,
    Bool.or_false]

/-- The stages that are read are those of the line: none of them is empty, and none of their words. -/
theorem stages_scan (line : String) :
    (scan line.toList).finish.stages = (Pipeline.ofLine line).stages.map Stage.arguments ∧
    ∀ words ∈ (scan line.toList).finish.stages, words ≠ [] ∧ ∀ a ∈ words, a ≠ "" := by
  rw [finish_scan]
  refine ⟨(arguments_ofLine line).symm, fun words hw => ?_⟩
  obtain ⟨segment, nonempty⟩ := List.mem_filter.1 hw
  obtain ⟨ms, -, rfl⟩ := List.mem_map.1 segment
  exact ⟨of_decide_eq_true nonempty, fun a ha => ne_empty_of_mem_wordsIn ha⟩

end EndingsAux

open EndingsAux

/-- A line that ends early is read as the line that does not: the closed line leaves nothing open, and reads as the same pipeline. No line
is read with an empty stage or an empty word in a stage. Every character of the closed line has its role, and the arguments of the line, put
together in order, are the characters that belong to words. -/
theorem reading_of_closed (line : String) :
    (scan (closed line).toList).Plain ∧
    Pipeline.ofLine (closed line) = Pipeline.ofLine line ∧
    ((scan line.toList).finish.stages = (Pipeline.ofLine line).stages.map Stage.arguments ∧
      ∀ words ∈ (scan line.toList).finish.stages, words ≠ [] ∧ ∀ a ∈ words, a ≠ "") ∧
    (Mode.roles {} (closed line).toList).map (·.1) = (closed line).toList ∧
    String.join ((Pipeline.ofLine line).stages.flatMap Stage.arguments) = String.ofList (letters (Mode.roles {} (closed line).toList)) := by
  have plain := plain_closed line
  have same : Pipeline.ofLine (closed line) = Pipeline.ofLine line := by
    refine Pipeline.eq_of_arguments ?_ (background_closed line)
    rw [arguments_ofLine, arguments_ofLine, segments_closed]
  have unescaped : (Mode.after {} (closed line).toList).escaped = false := mode_scan _ ▸ plain.unescaped
  refine ⟨plain, same, stages_scan line, Mode.map_fst_roles _ _, ?_⟩
  rw [← same, ← Mode.marks_of_unescaped unescaped, ← toList_arguments, ← String.toList_join, String.ofList_toList]

/-- A backslash that waits in open double quotes: both are closed. -/
example : closed "echo \"a\\" = "echo \"a\\\\\"" ∧ (Pipeline.ofLine "echo \"a\\").stages = [⟨"echo", ["a\\"]⟩] := by decide +kernel

end JobShell
