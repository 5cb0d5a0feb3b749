import JobShell.Proofs.Sessions.ExitCodes
import Mathlib.Data.List.DropRight
import Mathlib.Data.Nat.PSub

/-!
# The history

What a shell remembers is a window on the lines it was given: the last of them that are not blank, trimmed, and as many as its settings
allow (`history_runLines`). The window moves by one line at a time, and to make room for a line is always possible: there are never
more entries to let go of than there are (`rememberLine?_eq`). A line is remembered before it is run, so that `history` lists itself.
-/

namespace JobShell

open Act

variable {σ : Type} {S : System σ} {c : Settings}

/-- The entries that these lines make, if none has to be let go of: the lines that are not blank, trimmed. -/
def entriesOf (lines : List String) : List String := (lines.filter fun line => !isBlankLine line).map trim

/-- A list without so many of its first members, if it has as many. -/
def drain? {α : Type} (count : Nat) (xs : List α) : Option (List α) := if count ≤ xs.length then some (xs.drop count) else none

/-- Remembers a line in small steps. Where the history is full, it is computed how many entries are to be let go of, and these are taken
from its front. Nothing comes of it if that number were below zero or larger than the history. -/
def rememberLine? (limit : Nat) (history : List String) (line : String) : Option (List String) :=
  if (trim line).isEmpty || limit == 0 then some history
  else if limit ≤ history.length then do
    let excess ← Nat.psub (history.length + 1) limit
    let kept ← drain? excess history
    return kept ++ [trim line]
  else some (history ++ [trim line])

namespace HistoryAux

/-! ### Windows -/

variable {α : Type} {limit : Nat}

/-- A window is the end of the list, and as long as it may be. -/
theorem suffix_rtake (xs : List α) (n : Nat) : xs.rtake n <:+ xs ∧ (xs.rtake n).length = min n xs.length := by
  refine ⟨List.drop_suffix _ _, ?_⟩
  rw [List.rtake, List.length_drop]
  omega

/-- A smaller window on a window is a smaller window on the list. -/
theorem rtake_rtake {m n : Nat} (h : m ≤ n) (xs : List α) : (xs.rtake n).rtake m = xs.rtake m := by
  simp only [List.rtake, List.length_drop, List.drop_drop]
  congr 1
  omega

/-! ### Lines that are remembered -/

/-- Nothing is left of characters that are trimmed exactly if all are blank. -/
theorem trimChars_eq_nil_iff {cs : List Char} : trimChars cs = [] ↔ ∀ ch ∈ cs, isBlank ch = true := by
  constructor
  · intro nothing
    have rest : ∀ ch ∈ cs.dropWhile isBlank, isBlank ch = true := by
      intro ch hc
      exact List.dropWhile_eq_nil_iff.1 (List.reverse_eq_nil_iff.1 nothing) ch (List.mem_reverse.2 hc)
    have none_left : cs.dropWhile isBlank = [] := by
      rw [← List.dropWhile_idempotent]
      exact List.dropWhile_eq_nil_iff.2 rest
    exact List.dropWhile_eq_nil_iff.1 none_left
  · intro blank
    rw [trimChars, List.dropWhile_eq_nil_iff.2 blank]
    rfl

/-- A line is blank exactly if nothing is left of it when it is trimmed. -/
theorem isEmpty_trim (line : String) : (trim line).isEmpty = isBlankLine line := by
  rw [Bool.eq_iff_iff, String.isEmpty_iff, trim, String.ofList_eq_empty_iff, trimChars_eq_nil_iff]
  exact List.all_eq_true.symm

/-- A blank line makes no entry. -/
theorem entriesOf_blank {line : String} (h : isBlankLine line = true) (rest : List String) : entriesOf (line :: rest) = entriesOf rest := by
  simp [entriesOf, h]

/-- A line that is not blank makes an entry. -/
theorem entriesOf_unblank {line : String} (h : isBlankLine line = false) (rest : List String) :
    entriesOf (line :: rest) = trim line :: entriesOf rest := by
  simp [entriesOf, h]

/-- To remember a line in small steps is to remember it: no step fails. -/
theorem rememberLine?_eq (limit : Nat) (history : List String) (line : String) :
    rememberLine? limit history line = some (rememberLine limit history line) := by
  rw [rememberLine?, rememberLine, isEmpty_trim]
  split
  · rfl
  · rename_i kept
    have positive : 0 < limit := by
      rw [Bool.or_eq_true, not_or, beq_iff_eq] at kept
      exact Nat.pos_of_ne_zero kept.2
    split
    · rename_i full
      have above : limit ≤ history.length + 1 := Nat.le_succ_of_le full
      have enough : history.length + 1 - limit ≤ history.length := by omega
      rw [Nat.psub_eq_sub above]
      simp [drain?, enough]
    · rename_i room
      have nothing : history.length + 1 - limit = 0 := by omega
      rw [nothing, List.drop_zero]

/-- A window on the entries so far moves on by the entry of a line. -/
theorem rememberLine_rtake (limit : Nat) (xs : List String) (line : String) :
    rememberLine limit (xs.rtake limit) line = (xs ++ entriesOf [line]).rtake limit := by
  cases hb : isBlankLine line with
  | true => rw [rememberLine, hb, entriesOf_blank hb, Bool.true_or, if_pos rfl, entriesOf, List.filter_nil, List.map_nil, List.append_nil]
  | false =>
    rw [entriesOf_unblank hb]
    cases limit with
    | zero =>
      rw [rememberLine, hb, List.rtake_zero, List.rtake_zero]
      rfl
    | succ n =>
      have before : (xs.rtake (n + 1)).drop ((xs.rtake (n + 1)).length + 1 - (n + 1)) = xs.rtake n := by
        rw [Nat.add_sub_add_right]
        exact rtake_rtake (Nat.le_succ n) xs
      rw [rememberLine, hb, Bool.false_or, if_neg (by simp), before]
      exact (List.rtake_concat_succ xs n (trim line)).symm

/-- Lines that are remembered one after the other move the window on by their entries. -/
theorem foldl_rememberLine (limit : Nat) (lines xs : List String) :
    lines.foldl (rememberLine limit) (xs.rtake limit) = (xs ++ entriesOf lines).rtake limit := by
  induction lines generalizing xs with
  | nil => simp [entriesOf]
  | cons line rest ih =>
    have entries : entriesOf (line :: rest) = entriesOf [line] ++ entriesOf rest := by
      cases hb : isBlankLine line <;> simp [entriesOf, hb]
    rw [List.foldl_cons, rememberLine_rtake, ih, entries, List.append_assoc]

/-- To remember lines in small steps is to remember them. -/
theorem foldlM_rememberLine? (limit : Nat) (lines history : List String) :
    lines.foldlM (rememberLine? limit) history = some (lines.foldl (rememberLine limit) history) := by
  induction lines generalizing history with
  | nil => rfl
  | cons line rest ih =>
    rw [List.foldlM_cons, rememberLine?_eq]
    exact ih _

/-! ### Lines that are run -/

/-- It stands what is remembered. -/
theorem standing_history (S : System σ) : Standing S fun s s' => s'.history = s.history where
  trans h h' := h'.trans h
  free _ _ _ _ _ := rfl
  served _ := rfl
  timed _ _ _ _ := rfl

/-- A line is remembered and then run, which does not change what is remembered. -/
theorem history_runLine (line : String) (s : Session σ) :
    (runLine S c line s).2.history = rememberLine c.historyLimit s.history line :=
  (standing_history S).execute c.executor (Pipeline.ofLine line) line (fun _ _ => rfl) (fun _ _ => rfl) _

/-- Lines that are run are remembered one after the other. -/
theorem history_runLines (lines : List String) (s : Session σ) :
    (runLines S c lines s).2.history = lines.foldl (rememberLine c.historyLimit) s.history := by
  induction lines generalizing s with
  | nil => rfl
  | cons line rest ih =>
    rw [List.foldl_cons, ← history_runLine]
    exact ih (runLine S c line s).2

/-- The lines are run in two parts. -/
theorem runLines_append (lines later : List String) (s : Session σ) :
    runLines S c (lines ++ later) s =
      ((runLines S c lines s).1 ++ (runLines S c later (runLines S c lines s).2).1, (runLines S c later (runLines S c lines s).2).2) := by
  induction lines generalizing s with
  | nil => rfl
  | cons line rest ih =>
    have parted := ih (runLine S c line s).2
    have first : ∀ lines, runLines S c (line :: lines) s =
      ((runLine S c line s).1 :: (runLines S c lines (runLine S c line s).2).1, (runLines S c lines (runLine S c line s).2).2) :=
      fun _ => rfl
    rw [List.cons_append, first, first, parted]
    rfl

/-! ### The listing -/

/-- The history is listed with numbers from one on. -/
theorem historyText_eq (lines : List String) :
    historyText lines = String.join ((lines.zipIdx 1).map fun e => toString e.2 ++ " " ++ e.1 ++ "\n") := by
  rw [historyText, List.mapIdx_eq_zipIdx_map, List.zipIdx_succ, List.map_map]
  rfl

/-- The listing is empty only if nothing is remembered. -/
theorem isEmpty_historyText (lines : List String) : (historyText lines).isEmpty = lines.isEmpty := by
  cases lines with
  | nil => rfl
  | cons line rest =>
    have ended : historyText (line :: rest) ≠ "" := by
      rw [historyText, List.mapIdx_cons, String.join_cons]
      intro nothing
      have chars := congrArg String.toList nothing
      simp at chars
    simpa [String.isEmpty_iff] using ended

/-- The builtin `history`, whatever its operands, writes the listing and nothing else. -/
theorem runInShell_history (args : List String) (s : Session σ) :
    (runInShell S c.executor ⟨"history", args⟩ s).1 = 0 ∧
    (runInShell S c.executor ⟨"history", args⟩ s).2.world =
      if s.history = [] then s.world else S.write .out (historyText s.history) s.world := by
  have named : runNamed S c.executor.builtins ⟨"history", args⟩ s = (.success (historyText s.history), s) := rfl
  have silent : write S .err (CommandResult.success (historyText s.history)).errLine = pure () := rfl
  rw [runInShell, bind_apply, named, silent]
  refine ⟨rfl, ?_⟩
  show (write S .out (historyText s.history) s).2.world = _
  cases h : s.history with
  | nil => rfl
  | cons line rest =>
    have said : (historyText (line :: rest)).isEmpty = false := isEmpty_historyText (line :: rest)
    rw [write, said]
    rfl

/-- A line that asks for the history is remembered, and then the history is listed. -/
theorem runLine_of_history {line : String} {args : List String} (hp : (Pipeline.ofLine line).stages = [⟨"history", args⟩])
    (s : Session σ) :
    let remembered := rememberLine c.historyLimit s.history line
    (runLine S c line s).1 = 0 ∧
    (runLine S c line s).2.world = if remembered = [] then s.world else S.write .out (historyText remembered) s.world := by
  intro remembered
  have alone : c.executor.inShell? (Pipeline.ofLine line) = some ⟨"history", args⟩ := by
    rw [Executor.inShell?, Pipeline.single?, hp]
    rfl
  rw [runLine, bind_apply, modify_apply, execute_of_inShell S line alone, bind_apply]
  have ran := runInShell_history (S := S) (c := c) args { s with history := remembered }
  generalize runInShell S c.executor ⟨"history", args⟩ _ = r at ran ⊢
  exact ran

end HistoryAux

open HistoryAux

/-- What a shell remembers of the lines it has run, whatever they do and whatever its settings. It is the end of the list of the entries
that the lines make, as long as the settings allow. To remember the lines in small steps, none of which may go below zero or beyond the
end of the history, comes to the same. A line that asks for the history is remembered before it is run: the history of which it is the last
entry is listed with numbers from one on, and nothing else is asked of the system; without any entry nothing is written at all. -/
theorem history_of_lines (S : System σ) (c : Settings) (lines : List String) {s : Session σ} (hs : s.history = []) :
    let history := (runLines S c lines s).2.history
    (history <:+ entriesOf lines ∧ history.length = min c.historyLimit (entriesOf lines).length) ∧
    lines.foldlM (rememberLine? c.historyLimit) [] = some history ∧
    ∀ before line args, lines = before ++ [line] → (Pipeline.ofLine line).stages = [⟨"history", args⟩] →
      let listing := String.join ((history.zipIdx 1).map fun e => toString e.2 ++ " " ++ e.1 ++ "\n")
      let world := (runLines S c before s).2.world
      (0 < c.historyLimit → history.getLast? = some (trim line)) ∧
      (runLines S c lines s).1.getLast? = some 0 ∧
      (runLines S c lines s).2.world = if history = [] then world else S.write .out listing world := by
  have remembered : ∀ lines, (runLines S c lines s).2.history = (entriesOf lines).rtake c.historyLimit := by
    intro lines
    have moved := foldl_rememberLine c.historyLimit lines []
    rw [List.rtake_nil] at moved
    rw [history_runLines, hs, moved, List.nil_append]
  intro history
  have window : history = (entriesOf lines).rtake c.historyLimit := remembered lines
  refine ⟨?_, ?_, ?_⟩
  · rw [window]
    exact suffix_rtake _ _
  · rw [foldlM_rememberLine?, ← hs, ← history_runLines]
  · rintro before line args rfl hp listing world
    have unblank : isBlankLine line = false := by
      rw [← Bool.not_eq_true]
      intro blank
      have nothing := DialogueAux.isEmpty_of_blank blank
      rw [Pipeline.isEmpty, hp] at nothing
      cases nothing
    have parted := runLines_append (S := S) (c := c) before [line] s
    obtain ⟨status, written⟩ := runLine_of_history (S := S) (c := c) hp (runLines S c before s).2
    have last : history = rememberLine c.historyLimit (runLines S c before s).2.history line := by
      rw [← history_runLine]
      exact congrArg (·.2.history) parted
    rw [← last, historyText_eq] at written
    refine ⟨fun some_room => ?_, ?_, ?_⟩
    · obtain ⟨n, hn⟩ := Nat.exists_eq_succ_of_ne_zero (Nat.ne_of_gt some_room)
      rw [last, rememberLine, unblank, hn]
      simp
    · rw [parted, ← status]
      exact List.getLast?_concat
    · rw [parted]
      exact written

/-- A system on which nothing happens, with all that is written to it. -/
def System.printing : System (Unit × String) :=
  { System.idle.beside String with write := fun _ text w => (w.1, w.2 ++ text) }

/-- Room for two entries: the first is let go of, and the blank line is none. The last lists itself. -/
theorem history_of_lines_two :
    let s : Session (Unit × String) := { world := ((), "") }
    let c : Settings := { historyLimit := 2 }
    let before := ["echo one", "   ", "\techo two "]
    let ran := runLines System.printing c (before ++ [" history now &"]) s
    s.history = [] ∧ (Pipeline.ofLine " history now &").stages = [⟨"history", ["now"]⟩] ∧
      ran.2.history = ["echo two", "history now &"] ∧ ran.2.world.2 = "one\ntwo\n1 echo two\n2 history now &\n" := by
  intro s c before
  have stages : (Pipeline.ofLine " history now &").stages = [⟨"history", ["now"]⟩] := by decide +kernel
  have earlier : (runLines System.printing c before s).2.world = ((), "one\ntwo\n") := by decide +kernel
  have entries : entriesOf (before ++ [" history now &"]) = ["echo one", "echo two", "history now &"] := by decide +kernel
  obtain ⟨⟨suffix, length⟩, -, listed⟩ := history_of_lines System.printing c (before ++ [" history now &"]) (s := s) rfl
  obtain ⟨-, -, written⟩ := listed before " history now &" ["now"] rfl stages
  clear listed
  dsimp only
  generalize runLines System.printing c (before ++ [" history now &"]) s = ran at suffix length written ⊢
  rw [entries] at suffix length
  have kept : ran.2.history = ["echo two", "history now &"] := by
    rw [List.suffix_iff_eq_drop.1 suffix, length]
    rfl
  rw [kept, if_neg (List.cons_ne_nil _ _), earlier] at written
  refine ⟨rfl, stages, kept, ?_⟩
  rw [written]
  decide +kernel

end JobShell
