import JobShell.Proofs.Lines.Roles

/-!
# Lines put together

After a line that ends outside quotes, with no backslash that waits for its character, any other line is read as if it stood alone. So
lines compose: with a bar or an ampersand between them, the segments of the second follow those of the first (`segments_append_cut`), and
with blanks between them, the last segment of the first and the first one of the second are joined (`segments_append_blanks`). Nothing is
asked of the second line: its quotes may stay open.
-/

namespace JobShell

open Reading

namespace SeparatorsAux

variable {line later gap : String} {c : Char} {cs : List Char}

/-- A line that ends as it began leaves the mode that a line begins in. -/
theorem after_of_plain (h : (scan line.toList).Plain) : Mode.after {} line.toList = {} :=
  (mode_scan line.toList).symm.trans (plain_iff.1 h)

/-- A line after a plain one has the marks it has alone. -/
theorem marks_append_of_plain (h : (scan line.toList).Plain) (cs : List Char) :
    Mode.marks {} (line.toList ++ cs) = Mode.marks {} line.toList ++ Mode.marks {} cs := by
  have ends := after_of_plain h
  rw [Mode.marks_append, ends, Mode.marks_of_unescaped (congrArg Mode.escaped ends)]

/-- A line after a plain one has the roles it has alone. -/
theorem roles_append_of_plain (h : (scan line.toList).Plain) (cs : List Char) :
    Mode.roles {} (line.toList ++ cs) = Mode.roles {} line.toList ++ Mode.roles {} cs := by
  rw [Mode.roles_append, after_of_plain h]

/-- The characters of two lines with one between them. -/
theorem toList_append_singleton (line later : String) (c : Char) :
    (line ++ String.singleton c ++ later).toList = line.toList ++ c :: later.toList := by
  simp

/-! ### A bar or an ampersand between two lines -/

/-- What parts stages does not change how the next character is read. -/
theorem next_of_partsStages (hc : (Mode.role {} c).partsStages = true) : Mode.next {} c = {} := by
  refine Mode.next_of_unsilent ?_
  cases hr : Mode.role {} c with
  | quote | escape => exact absurd hc (by rw [hr]; decide)
  | _ => rfl

/-- With a character between them that parts stages, the segments of two lines follow each other. -/
theorem segments_append_cut (h : (scan line.toList).Plain) (hc : (Mode.role {} c).partsStages = true) :
    segments (line ++ String.singleton c ++ later) = segments line ++ segments later := by
  rw [segments, toList_append_singleton, marks_append_of_plain h, Mode.marks_cons, next_of_partsStages hc,
    segmentsIn_append_cut hc]
  rfl

/-- With a character between them that parts stages, the line is for the background if one of the two is or the character says so. -/
theorem background_append_cut (h : (scan line.toList).Plain) (hc : (Mode.role {} c).partsStages = true) :
    (Pipeline.ofLine (line ++ String.singleton c ++ later)).background =
      ((Pipeline.ofLine line).background || (Mode.role {} c = .ampersand || (Pipeline.ofLine later).background)) := by
  rw [background_ofLine, toList_append_singleton, roles_append_of_plain h, Mode.roles_cons, next_of_partsStages hc, List.any_append,
    List.any_cons, ← background_ofLine, ← background_ofLine]

/-- With a character between them that parts stages, the stages of two lines follow each other. -/
theorem ofLine_append_cut (later : String) (h : (scan line.toList).Plain) (hc : (Mode.role {} c).partsStages = true) :
    Pipeline.ofLine (line ++ String.singleton c ++ later) =
      { stages := (Pipeline.ofLine line).stages ++ (Pipeline.ofLine later).stages
        background := (Pipeline.ofLine line).background || (Mode.role {} c = .ampersand || (Pipeline.ofLine later).background) } := by
  refine Pipeline.eq_of_arguments ?_ (background_append_cut h hc)
  rw [arguments_ofLine, segments_append_cut h hc, List.filter_append, List.map_append, arguments_ofLine, arguments_ofLine]

/-! ### Blanks between two lines -/

/-- With blanks between them, the segments of two lines follow each other, and those that meet at the blanks are joined. -/
theorem segments_append_blanks (h : (scan line.toList).Plain) (hne : gap ≠ "") (hgap : isBlankLine gap = true) :
    segments (line ++ gap ++ later) = joinEnds (segments line) (segments later) := by
  obtain ⟨blanks, ends⟩ := Mode.roles_blanks (List.all_eq_true.1 hgap)
  obtain ⟨c, cs, hcs⟩ := List.exists_cons_of_ne_nil (l := gap.toList) (by simpa using hne)
  rw [segments, String.toList_append, String.toList_append, List.append_assoc, marks_append_of_plain h, Mode.marks_append, blanks, ends,
    hcs, List.map_cons, List.cons_append, segmentsIn_append_blank rfl, segmentsIn_blanks]
  rfl

/-- With blanks between them, the line is for the background if one of the two is. -/
theorem background_append_blanks (h : (scan line.toList).Plain) (hgap : isBlankLine gap = true) :
    (Pipeline.ofLine (line ++ gap ++ later)).background = ((Pipeline.ofLine line).background || (Pipeline.ofLine later).background) := by
  obtain ⟨blanks, ends⟩ := Mode.roles_blanks (List.all_eq_true.1 hgap)
  have unmarked : (gap.toList.map (·, Role.blank)).any (·.2 = .ampersand) = false := by simp
  rw [background_ofLine, String.toList_append, String.toList_append, List.append_assoc, roles_append_of_plain h, List.any_append,
    Mode.roles_append, blanks, ends, List.any_append, unmarked, Bool.false_or, ← background_ofLine, ← background_ofLine]

end SeparatorsAux

open SeparatorsAux

/-- The stages of a line are its segments without the empty ones. After a line that ends outside quotes and with no backslash that waits,
any line can follow: with a bar or an ampersand between them its stages follow those of the first, and with blanks between them its
segments do, where the last of the first line and the first of the second are made into one. The whole is for the background if one of the
two is, or if there is an ampersand between them. -/
theorem segments_of_joined :
    (∀ line : String, (Pipeline.ofLine line).stages.map Stage.arguments = (segments line).filter (· ≠ [])) ∧
    ∀ line later : String, (scan line.toList).Plain →
      let p := Pipeline.ofLine line
      let q := Pipeline.ofLine later
      Pipeline.ofLine (line ++ "|" ++ later) = { stages := p.stages ++ q.stages, background := p.background || q.background } ∧
      Pipeline.ofLine (line ++ "&" ++ later) = { stages := p.stages ++ q.stages, background := true } ∧
      ∀ gap : String, gap ≠ "" → isBlankLine gap = true →
        segments (line ++ gap ++ later) = joinEnds (segments line) (segments later) ∧
        (Pipeline.ofLine (line ++ gap ++ later)).background = (p.background || q.background) := by
  refine ⟨arguments_ofLine, fun line later h => ⟨?_, ?_, fun gap hne hgap => ?_⟩⟩
  · have barred := ofLine_append_cut (c := '|') later h rfl
    rwa [decide_eq_false (by decide), Bool.false_or] at barred
  · have marked := ofLine_append_cut (c := '&') later h rfl
    rwa [decide_eq_true (by decide), Bool.true_or, Bool.or_true] at marked
  · exact ⟨segments_append_blanks h hne hgap, background_append_blanks h hgap⟩

/-- Two lines with several stages each: the first has marks in quotes and after a backslash, the second ends in open quotes with a
backslash. -/
theorem segments_of_joined_open :
    let line := "a 'b|c'&x\\&"
    let later := "d | \"e &\\"
    (scan line.toList).Plain ∧ (" \t" : String) ≠ "" ∧ isBlankLine " \t" = true ∧
      (Pipeline.ofLine (line ++ "|" ++ later)).stages.map Stage.arguments = [["a", "b|c"], ["x&"], ["d"], ["e &\\"]] ∧
      segments (line ++ " \t" ++ later) = [["a", "b|c"], ["x&", "d"], ["e &\\"]] := by
  intro line later
  have plain : (scan line.toList).Plain := ⟨by decide +kernel, by decide +kernel⟩
  have blanks : isBlankLine " \t" = true := by decide +kernel
  obtain ⟨barred, -, joined⟩ := segments_of_joined.2 line later plain
  have apart := (joined " \t" (by decide) blanks).1
  have first : segments line = [["a", "b|c"], ["x&"]] := by decide +kernel
  have second : segments later = [["d"], ["e &\\"]] := by decide +kernel
  refine ⟨plain, by decide, blanks, ?_, ?_⟩
  · rw [barred, List.map_append, segments_of_joined.1, segments_of_joined.1, first, second]
    rfl
  · rw [apart, first, second]
    rfl

end JobShell
