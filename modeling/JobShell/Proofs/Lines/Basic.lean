import JobShell.Pipeline.Reading

/-!
# Reading, one character at a time

What a character does to what has been read so far. Outside quotes there are four kinds of characters: those that belong to the word
(`step_bare`), blanks (`step_blank`), the marks that end a stage (`step_bar`, `step_ampersand`), and those that change how the ones
after them are read. Words and stages come out as they were read, without the empty ones (`endWord_eq`, `endStage_eq`).
-/

namespace JobShell

/-- The character has no meaning of its own outside quotes: it is neither blank nor a mark. -/
def isBare (c : Char) : Bool := !isBlank c && !(['\'', '"', '\\', '|', '&'].contains c)

/-- The word that these characters make up; an empty one is none. -/
def wordOf (cs : List Char) : List String := if cs.isEmpty then [] else [String.ofList cs]

/-- The stage that these words make up; an empty one is none. -/
def stageOf (ws : List String) : List (List String) := if ws.isEmpty then [] else [ws]

/-- The word of some characters, unless it is empty. -/
theorem wordOf_eq (cs : List Char) : wordOf cs = [String.ofList cs].filter (· ≠ "") := by
  cases cs with
  | nil => rfl
  | cons c cs =>
    simp [wordOf]

/-- The stage of some words, unless it is empty. -/
theorem stageOf_eq (ws : List String) : stageOf ws = [ws].filter (· ≠ []) := by
  cases ws with
  | nil => rfl
  | cons w ws => simp [stageOf]

/-- The argument lists of a pipeline are the ones that it was made of, without the empty ones. -/
theorem Pipeline.arguments_ofArguments (stages : List (List String)) (background : Bool) :
    (Pipeline.ofArguments stages background).stages.map Stage.arguments = stages.filter (· ≠ []) := by
  induction stages with
  | nil => rfl
  | cons args rest ih =>
    cases args with
    | nil => exact ih
    | cons program operands => exact congrArg ((program :: operands) :: ·) ih

/-- A pipeline is known by its argument lists and its place. -/
theorem Pipeline.eq_of_arguments {p q : Pipeline} (ha : p.stages.map Stage.arguments = q.stages.map Stage.arguments)
    (hb : p.background = q.background) : p = q := by
  have injective : Function.Injective Stage.arguments := fun s s' h =>
    Option.some.inj ((Stage.ofArguments?_arguments s).symm.trans (h ▸ Stage.ofArguments?_arguments s'))
  cases p
  cases q
  cases hb
  cases List.map_inj_right (fun _ _ h => injective h) |>.1 ha
  rfl

namespace Reading

variable {r : Reading} {c : Char} {cs ds : List Char}

/-- What has been read after these characters more. -/
def readAll (r : Reading) (cs : List Char) : Reading := cs.foldl step r

@[simp]
theorem readAll_nil (r : Reading) : r.readAll [] = r := rfl

@[simp]
theorem readAll_cons (r : Reading) (c : Char) (cs : List Char) : r.readAll (c :: cs) = (r.step c).readAll cs := rfl

@[simp]
theorem readAll_append (r : Reading) (cs ds : List Char) : r.readAll (cs ++ ds) = (r.readAll cs).readAll ds :=
  List.foldl_append

/-- The word with these characters more. -/
def extend (r : Reading) (cs : List Char) : Reading := { r with word := r.word ++ cs }

/-- The word is extended in two parts. -/
theorem extend_extend (r : Reading) (cs ds : List Char) : (r.extend cs).extend ds = r.extend (cs ++ ds) := by
  simp [extend]

/-- No quotes are open, and no backslash waits for its character. -/
structure Plain (r : Reading) : Prop where
  unquoted : r.quoting = .none
  unescaped : r.escaped = false

/-- What extends the word leaves quotes and backslashes as they are. -/
theorem Plain.extend (h : r.Plain) (cs : List Char) : (r.extend cs).Plain := ⟨h.unquoted, h.unescaped⟩

/-! ## The end of a word and of a stage -/

/-- A word that ends joins the others, unless it is empty. -/
theorem endWord_eq (r : Reading) : r.endWord = { r with word := [], words := r.words ++ wordOf r.word } := by
  obtain ⟨quoting, escaped, background, word, words, stages⟩ := r
  cases word <;> simp [endWord, wordOf]

/-- A stage that ends joins the others with its last word, unless it is empty. -/
theorem endStage_eq (r : Reading) :
    r.endStage = { r with word := [], words := [], stages := r.stages ++ stageOf (r.words ++ wordOf r.word) } := by
  rw [endStage, endWord_eq]
  dsimp only
  cases hw : r.words ++ wordOf r.word <;> simp [stageOf]

/-- The end of a word leaves quotes and backslashes as they are. -/
theorem Plain.endWord (h : r.Plain) : r.endWord.Plain := by
  rw [endWord_eq]
  exact ⟨h.unquoted, h.unescaped⟩

/-- The end of a stage leaves quotes and backslashes as they are. -/
theorem Plain.endStage (h : r.Plain) : r.endStage.Plain := by
  rw [endStage_eq]
  exact ⟨h.unquoted, h.unescaped⟩

/-- Where no word was begun, the end of a word is none. -/
theorem endWord_of_nil (h : r.word = []) : r.endWord = r := by
  rw [endWord, h]

/-! ## Characters outside quotes -/

/-- A bare character is neither blank nor a mark. -/
theorem isBare_iff : isBare c = true ↔ isBlank c = false ∧ c ≠ '\'' ∧ c ≠ '"' ∧ c ≠ '\\' ∧ c ≠ '|' ∧ c ≠ '&' := by
  simp [isBare]

/-- A blank character is no mark. -/
theorem ne_mark_of_isBlank (h : isBlank c = true) : c ≠ '\'' ∧ c ≠ '"' ∧ c ≠ '\\' ∧ c ≠ '|' ∧ c ≠ '&' := by
  refine ⟨?_, ?_, ?_, ?_, ?_⟩ <;> rintro rfl <;> exact absurd h (by decide)

/-- A bare character belongs to the word. -/
theorem step_bare (h : r.Plain) (hc : isBare c = true) : r.step c = r.extend [c] := by
  obtain ⟨hblank, h1, h2, h3, h4, h5⟩ := isBare_iff.1 hc
  simp [step, extend, push, h.unquoted, h.unescaped, hblank, h1, h2, h3, h4, h5]

/-- A blank character ends the word. -/
theorem step_blank (h : r.Plain) (hc : isBlank c = true) : r.step c = r.endWord := by
  obtain ⟨h1, h2, h3, h4, h5⟩ := ne_mark_of_isBlank hc
  simp [step, h.unquoted, h.unescaped, hc, h1, h2, h3, h4, h5]

/-- A bar ends the stage. -/
theorem step_bar (h : r.Plain) : r.step '|' = r.endStage := by
  simp [step, h.unquoted, h.unescaped]

/-- An ampersand ends the stage as well, and marks the pipeline for the background. -/
theorem step_ampersand (h : r.Plain) : r.step '&' = { r.endStage with background := true } := by
  simp [step, h.unquoted, h.unescaped]

/-- Blank characters, at least one of them, end the word. -/
theorem readAll_blanks (h : r.Plain) (hcs : ∀ c ∈ cs, isBlank c = true) (hne : cs ≠ []) : r.readAll cs = r.endWord := by
  induction cs generalizing r with
  | nil => exact absurd rfl hne
  | cons c rest ih =>
    have blank : isBlank c = true := hcs c List.mem_cons_self
    have blanks : ∀ c ∈ rest, isBlank c = true := fun c hc => hcs c (List.mem_cons_of_mem _ hc)
    rw [readAll_cons, step_blank h blank]
    by_cases hr : rest = []
    · rw [hr, readAll_nil]
    · have ended : r.endWord.word = [] := by rw [endWord_eq]
      rw [ih h.endWord blanks hr, endWord_of_nil ended]

/-- Where no word was begun, blank characters do nothing. -/
theorem readAll_blanks_of_nil (h : r.Plain) (hw : r.word = []) (hcs : ∀ c ∈ cs, isBlank c = true) : r.readAll cs = r := by
  by_cases hne : cs = []
  · rw [hne, readAll_nil]
  · rw [readAll_blanks h hcs hne, endWord_of_nil hw]

/-! ## Quotes and backslashes -/

/-- A backslash takes the next character as it is. -/
theorem readAll_escaped (h : r.Plain) (c : Char) : r.readAll ['\\', c] = r.extend [c] := by
  obtain ⟨quoting, escaped, background, word, words, stages⟩ := r
  obtain ⟨rfl, rfl⟩ := h
  simp [step, extend, push]

/-- Single quotes take everything up to the next one as it is. -/
theorem readAll_single (h : r.Plain) (hcs : '\'' ∉ cs) : r.readAll ('\'' :: cs ++ ['\'']) = r.extend cs := by
  have inside : ∀ r : Reading, r.quoting = .single → r.escaped = false → r.readAll cs = r.extend cs := by
    induction cs with
    | nil => intro r _ _; simp [extend]
    | cons c rest ih =>
      intro r hq he
      obtain ⟨hc, hrest⟩ : '\'' ≠ c ∧ '\'' ∉ rest := by simpa using hcs
      have taken : r.step c = r.extend [c] := by simp [step, extend, push, hq, he, hc.symm]
      rw [readAll_cons, taken, ih hrest (r.extend [c]) hq he, extend_extend]
      rfl
  obtain ⟨quoting, escaped, background, word, words, stages⟩ := r
  obtain ⟨rfl, rfl⟩ := h
  have opened : (⟨.none, false, background, word, words, stages⟩ : Reading).step '\'' =
      ⟨.single, false, background, word, words, stages⟩ := by simp [step]
  rw [List.cons_append, readAll_cons, opened, readAll_append, inside _ rfl rfl]
  simp [step, extend]

end Reading

end JobShell
