import JobShell.Proofs.Lines.Basic

/-!
# Lines as they are spelled

A word can be spelled in many ways: character by character, with backslashes, in quotes of either kind, or in parts of each. Here the
spellings are data: `SpelledLine` holds the pieces of each word and the blanks between words and stages, and each piece carries the proof
that its characters mean what it says.

Reading inverts spelling, piece by piece (`readAll_piece`), word by word (`readAll_word`) and stage by stage (`readAll_stage`).
`ofLine_of_spelled` assembles these: a spelled line reads as the words that it spells, without the empty ones and without the stages that
come out empty. Every pipeline without empty arguments has a spelling.
-/

namespace JobShell

/-! ## Spellings -/

/-- A character between double quotes: as it is, or after a backslash. -/
inductive QuotedChar where
  | plain (c : Char) (ordinary : c ≠ '"' ∧ c ≠ '\\')
  | escaped (c : Char)

/-- A piece of a word: a bare character, one after a backslash, or characters between quotes. -/
inductive Piece where
  | bare (c : Char) (ordinary : isBare c = true)
  | escaped (c : Char)
  | single (cs : List Char) (unquoted : '\'' ∉ cs)
  | double (cs : List QuotedChar)

/-- Blank characters. -/
structure Blanks where
  chars : List Char := []
  blank : chars.all isBlank = true := by decide

/-- Blank characters between two words, at least one of them. -/
structure Gap extends Blanks where
  nonempty : chars ≠ [] := by decide

/-- A stage: blanks, then words of which each has a gap after it, then a word without one, if there is a last word that the stage or
the line ends with. -/
structure SpelledStage where
  before : Blanks := {}
  spaced : List (List Piece × Gap) := []
  last : Option (List Piece) := none

/-- Stages, and the blanks after the mark for the background, if there is one. -/
structure SpelledLine where
  stages : List SpelledStage
  mark : Option Blanks := none

/-- The characters that spell the character. -/
def QuotedChar.text : QuotedChar → List Char
  | plain c _ => [c]
  | escaped c => ['\\', c]

/-- The character that is spelled. -/
def QuotedChar.value : QuotedChar → Char
  | plain c _ => c
  | escaped c => c

namespace Piece

/-- The characters of the piece. -/
def text : Piece → List Char
  | bare c _ => [c]
  | escaped c => ['\\', c]
  | single cs _ => '\'' :: cs ++ ['\'']
  | double cs => '"' :: cs.flatMap QuotedChar.text ++ ['"']

/-- What the piece stands for. -/
def value : Piece → List Char
  | bare c _ => [c]
  | escaped c => [c]
  | single cs _ => cs
  | double cs => cs.map QuotedChar.value

end Piece

/-- The words that are spelled, without the empty ones. -/
def wordsOf (ws : List (List Piece)) : List String := (ws.map fun w => String.ofList (w.flatMap Piece.value)).filter (· ≠ "")

namespace SpelledStage

/-- The words of the stage. -/
def words (s : SpelledStage) : List (List Piece) := s.spaced.map (·.1) ++ s.last.toList

/-- The characters of the words that have a gap after them. -/
def spacedText (s : SpelledStage) : List Char := s.spaced.flatMap fun w => w.1.flatMap Piece.text ++ w.2.chars

/-- The characters of the stage. -/
def text (s : SpelledStage) : List Char := s.before.chars ++ s.spacedText ++ (s.last.getD []).flatMap Piece.text

end SpelledStage

namespace SpelledLine

/-- The characters of the line. -/
def text (l : SpelledLine) : List Char :=
  ['|'].intercalate (l.stages.map SpelledStage.text) ++ (l.mark.map fun b => '&' :: b.chars).getD []

/-- The line. -/
def line (l : SpelledLine) : String := String.ofList l.text

end SpelledLine

/-- A pipeline spelled with a backslash before every character, and a space after every word. -/
def Pipeline.spelled (p : Pipeline) : SpelledLine :=
  { stages := p.stages.map fun s => { spaced := s.arguments.map fun a => (a.toList.map .escaped, { chars := [' '] }) }
    mark := if p.background then some {} else none }

/-! ## Reading what is spelled -/

namespace SpellingAux

open Reading

variable {r : Reading}

/-- Double quotes take everything up to the next one, and a backslash between them the next character. -/
theorem readAll_double (h : r.Plain) (cs : List QuotedChar) :
    r.readAll ('"' :: cs.flatMap QuotedChar.text ++ ['"']) = r.extend (cs.map QuotedChar.value) := by
  have inside : ∀ r : Reading, r.quoting = .double → r.escaped = false →
      r.readAll (cs.flatMap QuotedChar.text) = r.extend (cs.map QuotedChar.value) := by
    induction cs with
    | nil => intro r _ _; simp [extend]
    | cons c rest ih =>
      intro r hq he
      have taken : r.readAll c.text = r.extend [c.value] := by
        obtain ⟨quoting, escaped, background, word, words, stages⟩ := r
        obtain rfl : quoting = .double := hq
        obtain rfl : escaped = false := he
        cases c with
        | plain c ordinary => simp [QuotedChar.text, QuotedChar.value, step, extend, push, ordinary.1, ordinary.2]
        | escaped c => simp [QuotedChar.text, QuotedChar.value, step, extend, push]
      rw [List.flatMap_cons, readAll_append, taken, ih (r.extend [c.value]) hq he, extend_extend]
      rfl
  obtain ⟨quoting, escaped, background, word, words, stages⟩ := r
  obtain ⟨rfl, rfl⟩ := h
  have opened : (⟨.none, false, background, word, words, stages⟩ : Reading).step '"' =
      ⟨.double, false, background, word, words, stages⟩ := by simp [step]
  rw [List.cons_append, readAll_cons, opened, readAll_append, inside _ rfl rfl]
  simp [step, extend]

/-- A piece adds what it stands for to the word. -/
theorem readAll_piece (h : r.Plain) (p : Piece) : r.readAll p.text = r.extend p.value := by
  cases p with
  | bare c ordinary => exact step_bare h ordinary
  | escaped c => exact readAll_escaped h c
  | single cs unquoted => exact readAll_single h unquoted
  | double cs => exact readAll_double h cs

/-- A spelled word adds what it stands for to the word. -/
theorem readAll_word (h : r.Plain) (w : List Piece) : r.readAll (w.flatMap Piece.text) = r.extend (w.flatMap Piece.value) := by
  induction w generalizing r with
  | nil => simp [extend]
  | cons p rest ih =>
    rw [List.flatMap_cons, readAll_append, readAll_piece h, ih (h.extend _), extend_extend, List.flatMap_cons]

/-- Words that are spelled in two parts. -/
theorem wordsOf_append (ws ws' : List (List Piece)) : wordsOf (ws ++ ws') = wordsOf ws ++ wordsOf ws' := by
  simp [wordsOf]

/-- Words with a gap after each join the others, without the empty ones. -/
theorem readAll_spaced (h : r.Plain) (hw : r.word = []) (s : SpelledStage) :
    r.readAll s.spacedText = { r with words := r.words ++ wordsOf (s.spaced.map (·.1)) } := by
  rw [SpelledStage.spacedText]
  induction s.spaced generalizing r with
  | nil => simp [wordsOf]
  | cons w rest ih =>
    have ended : r.readAll (w.1.flatMap Piece.text ++ w.2.chars) = { r with words := r.words ++ wordsOf [w.1] } := by
      rw [readAll_append, readAll_word h, readAll_blanks (h.extend _) (List.all_eq_true.1 w.2.blank) w.2.nonempty, endWord_eq]
      simp [extend, hw, wordOf_eq, wordsOf]
    have later := ih (r := { r with words := r.words ++ wordsOf [w.1] }) ⟨h.unquoted, h.unescaped⟩ hw
    rw [List.flatMap_cons, readAll_append, ended, later, List.append_assoc, ← wordsOf_append]
    rfl

/-- A stage that is read and then ends joins the others with its words, unless it has none. -/
theorem readAll_stage (h : r.Plain) (hw : r.word = []) (hws : r.words = []) (s : SpelledStage) :
    (r.readAll s.text).Plain ∧ (r.readAll s.text).endStage = { r with stages := r.stages ++ stageOf (wordsOf s.words) } := by
  have spaced : r.readAll (s.before.chars ++ s.spacedText) = { r with words := wordsOf (s.spaced.map (·.1)) } := by
    rw [readAll_append, readAll_blanks_of_nil h hw (List.all_eq_true.1 s.before.blank), readAll_spaced h hw, hws, List.nil_append]
  have plain : Plain { r with words := wordsOf (s.spaced.map (·.1)) } := ⟨h.unquoted, h.unescaped⟩
  have words : wordsOf (s.spaced.map (·.1)) ++ wordOf ((s.last.getD []).flatMap Piece.value) = wordsOf s.words := by
    rw [SpelledStage.words, wordsOf_append, wordOf_eq]
    cases s.last <;> rfl
  rw [SpelledStage.text, readAll_append, spaced, readAll_word plain, endStage_eq]
  refine ⟨plain.extend _, ?_⟩
  simp only [extend, hw, hws, List.nil_append, words]

/-- Stages that are read one after the other, and then end, join the others without the empty ones. -/
theorem readAll_stages (h : r.Plain) (hw : r.word = []) (hws : r.words = []) (ss : List SpelledStage) :
    (r.readAll (['|'].intercalate (ss.map SpelledStage.text))).Plain ∧
    (r.readAll (['|'].intercalate (ss.map SpelledStage.text))).endStage =
      { r with stages := r.stages ++ (ss.map fun s => wordsOf s.words).filter (· ≠ []) } := by
  induction ss generalizing r with
  | nil =>
    refine ⟨h, ?_⟩
    simp [endStage_eq, hw, hws, wordOf, stageOf]
  | cons s rest ih =>
    obtain ⟨plain, ended⟩ := readAll_stage h hw hws s
    cases rest with
    | nil =>
      rw [stageOf_eq] at ended
      rw [List.map_singleton, List.intercalate_singleton, List.map_singleton]
      exact ⟨plain, ended⟩
    | cons s' rest =>
      have barred : r.readAll (s.text ++ ['|']) = { r with stages := r.stages ++ stageOf (wordsOf s.words) } := by
        rw [readAll_append, readAll_cons, readAll_nil, step_bar plain, ended]
      have later := ih (r := { r with stages := r.stages ++ stageOf (wordsOf s.words) }) ⟨h.unquoted, h.unescaped⟩ hw hws
      rw [List.map_cons, List.map_cons, List.intercalate_cons_cons, readAll_append, barred]
      refine ⟨later.1, ?_⟩
      rw [← List.map_cons, later.2, List.append_assoc, stageOf_eq, ← List.filter_append]
      rfl

/-- The stages that are read of a spelled line are its stages, without the empty ones. -/
theorem finish_spelled (l : SpelledLine) :
    (scan l.text).finish.stages = (l.stages.map fun s => wordsOf s.words).filter (· ≠ []) ∧
    (scan l.text).background = l.mark.isSome := by
  have start : Plain {} := ⟨rfl, rfl⟩
  obtain ⟨plain, ended⟩ := readAll_stages start rfl rfl l.stages
  generalize hr : Reading.readAll {} (['|'].intercalate (l.stages.map SpelledStage.text)) = r at plain ended
  have before : r.background = false := by
    have := congrArg Reading.background ended
    rwa [endStage_eq] at this
  have read : scan l.text = r.readAll ((l.mark.map fun b => '&' :: b.chars).getD []) := by
    rw [SpelledLine.text, ← hr, ← readAll_append]
    rfl
  rw [read]
  cases l.mark with
  | none =>
    refine ⟨?_, before⟩
    rw [Option.map_none, Option.getD_none, readAll_nil, finish, if_neg (by simp [plain.unescaped]), ended, List.nil_append]
  | some blanks =>
    -- After the mark nothing is begun any more, so that the blanks and the end of the line do nothing.
    have marked : r.readAll ('&' :: blanks.chars) = { r.endStage with background := true } := by
      rw [readAll_cons, step_ampersand plain, ended]
      exact readAll_blanks_of_nil ⟨start.unquoted, start.unescaped⟩ rfl (List.all_eq_true.1 blanks.blank)
    rw [Option.map_some, Option.getD_some, marked, ended]
    refine ⟨?_, rfl⟩
    rw [finish, if_neg nofun, endStage_eq]
    simp [wordOf, stageOf]

/-- The words of a pipeline that is spelled character by character are its arguments, if none of them is empty. -/
theorem words_spelled {p : Pipeline} (h : ∀ s ∈ p.stages, ∀ a ∈ s.arguments, a ≠ "") :
    p.spelled.stages.map (fun s => wordsOf s.words) = p.stages.map Stage.arguments := by
  have value : ∀ a : String, String.ofList ((a.toList.map Piece.escaped).flatMap Piece.value) = a := by
    intro a
    have chars : (a.toList.map Piece.escaped).flatMap Piece.value = a.toList := by
      rw [List.flatMap_map]
      exact List.flatMap_singleton' _
    rw [chars, String.ofList_toList]
  rw [Pipeline.spelled, List.map_map]
  refine List.map_congr_left fun s hs => ?_
  have nonempty : s.arguments.filter (· ≠ "") = s.arguments := List.filter_eq_self.2 fun a ha => by simpa using h s hs a ha
  simp only [Function.comp_apply, SpelledStage.words, wordsOf, Option.toList_none, List.append_nil, List.map_map]
  rw [List.map_congr_left (g := id), List.map_id]
  · exact nonempty
  · intro a _
    exact value a

end SpellingAux

open SpellingAux

/-- However its words are spelled, a line reads as the stages of the words that it spells, in order, without the empty words and without
the stages that come out empty, and for the background exactly if it ends with the mark for it. Every pipeline without empty arguments
can be spelled, so that the line reads as the pipeline. -/
theorem ofLine_of_spelled :
    (∀ l : SpelledLine,
      (Pipeline.ofLine l.line).stages.map Stage.arguments = (l.stages.map fun s => wordsOf s.words).filter (· ≠ []) ∧
      (Pipeline.ofLine l.line).background = l.mark.isSome) ∧
    (∀ p : Pipeline, (∀ s ∈ p.stages, ∀ a ∈ s.arguments, a ≠ "") → Pipeline.ofLine p.spelled.line = p) := by
  have decoded : ∀ l : SpelledLine,
      (Pipeline.ofLine l.line).stages.map Stage.arguments = (l.stages.map fun s => wordsOf s.words).filter (· ≠ []) ∧
      (Pipeline.ofLine l.line).background = l.mark.isSome := by
    intro l
    obtain ⟨stages, background⟩ := finish_spelled l
    rw [Pipeline.ofLine, SpelledLine.line, String.toList_ofList, Reading.pipeline]
    refine ⟨?_, background⟩
    rw [Pipeline.arguments_ofArguments, stages, List.filter_filter]
    simp only [Bool.and_self]
  refine ⟨decoded, fun p h => Pipeline.eq_of_arguments ?_ ?_⟩
  · rw [(decoded p.spelled).1, words_spelled h]
    exact List.filter_eq_self.2 (by simp [Stage.arguments])
  · rw [(decoded p.spelled).2, Pipeline.spelled]
    cases p.background <;> rfl

/-- Two stages for the background, with quotes, marks, blanks and a backslash in their arguments. -/
theorem ofLine_of_spelled_marks :
    let p : Pipeline := { stages := [⟨"print f", ["it's", "a|b & c\\"]⟩, ⟨"\u00e9\n", ["\""]⟩], background := true }
    (∀ s ∈ p.stages, ∀ a ∈ s.arguments, a ≠ "") ∧ Pipeline.ofLine p.spelled.line = p := by
  intro p
  have nonempty : ∀ s ∈ p.stages, ∀ a ∈ s.arguments, a ≠ "" := by decide
  exact ⟨nonempty, ofLine_of_spelled.2 p nonempty⟩

end JobShell
