import JobShell.Proofs.Lines.Basic

/-!
# What the characters of a line are

The quotes that are open at a place of a line, and whether a backslash stands before it, make up the `Mode` there. The mode decides which
`Role` a character has: it belongs to a word, it opens or closes quotes, it is a backslash that takes the next character as it is, it parts
words, or it parts stages.

The words and the stages can be told from the roles: a line is cut at the bars and ampersands that part stages, and each segment at the
blanks that part words (`segments`). To read a line in one pass comes to the same. What one character does is decided by its role
(`Reading.step_eq`), and by induction on the characters the stages of a line are its segments without the empty ones
(`arguments_ofLine`), and a line is for the background exactly if one of its characters is an ampersand that parts stages
(`background_ofLine`).
-/

namespace JobShell

/-- What a character is in its line. -/
inductive Role where
  | letter | quote | escape | blank | bar | ampersand
  deriving DecidableEq, Repr

/-- The character parts stages. -/
def Role.partsStages : Role → Bool
  | .bar | .ampersand => true
  | _ => false

/-- The character only says how others are read: it opens or closes quotes, or takes the next character as it is. -/
def Role.isSilent : Role → Bool
  | .quote | .escape => true
  | _ => false

/-- A character with its role. -/
abbrev Marked := Char × Role

/-- How the next character is read: the quotes that are open, and whether there is a backslash before it that takes it as it is. -/
structure Mode where
  quoting : Quoting := .none
  escaped : Bool := false
  deriving DecidableEq, Repr

namespace Mode

/-- The role of the next character. -/
def role (m : Mode) (c : Char) : Role :=
  if m.escaped then .letter
  else match m.quoting with
    | .single => if c = '\'' then .quote else .letter
    | .double => if c = '\\' then .escape else if c = '"' then .quote else .letter
    | .none =>
      if c = '\\' then .escape
      else if c = '\'' ∨ c = '"' then .quote
      else if c = '|' then .bar
      else if c = '&' then .ampersand
      else if isBlank c then .blank
      else .letter

/-- The mode after the next character. -/
def next (m : Mode) (c : Char) : Mode :=
  match m.role c, m.quoting with
  | .escape, q => ⟨q, true⟩
  | .quote, .none => ⟨if c = '\'' then .single else .double, false⟩
  | .quote, _ => ⟨.none, false⟩
  | _, q => ⟨q, false⟩

/-- The mode after these characters. -/
def after (m : Mode) (cs : List Char) : Mode := cs.foldl next m

/-- The characters with their roles. -/
def roles : Mode → List Char → List Marked
  | _, [] => []
  | m, c :: cs => (c, m.role c) :: (m.next c).roles cs

/-- The characters up to the end of the line with their roles: a last backslash, without a character to take, stands for itself. -/
def marks (m : Mode) (cs : List Char) : List Marked :=
  m.roles cs ++ if (m.after cs).escaped then [('\\', .letter)] else []

end Mode

/-! ## The segments of a line -/

/-- The characters that belong to words. -/
def letters (ms : List Marked) : List Char := (ms.filter (·.2 = .letter)).map (·.1)

/-- The words between the blanks, without the empty ones. -/
def wordsIn (ms : List Marked) : List String := (ms.splitOnP (·.2 = .blank)).flatMap fun w => wordOf (letters w)

/-- The words of the segments between the characters that part stages, the empty segments with them. -/
def segmentsIn (ms : List Marked) : List (List String) := (ms.splitOnP (·.2.partsStages)).map wordsIn

/-- The segments of a line. -/
def segments (line : String) : List (List String) := segmentsIn (Mode.marks {} line.toList)

/-- Lists one after the other, of which the last of the first and the first of the second are made into one. -/
def joinEnds {α : Type} (xs ys : List (List α)) : List (List α) := xs.dropLast ++ (xs.getLastD [] ++ ys.headD []) :: ys.tail

namespace Mode

variable {m : Mode} {c : Char} {cs ds : List Char}

theorem after_cons (m : Mode) (c : Char) (cs : List Char) : m.after (c :: cs) = (m.next c).after cs := rfl

/-- The mode after characters in two parts. -/
theorem after_append (m : Mode) (cs ds : List Char) : m.after (cs ++ ds) = (m.after cs).after ds := List.foldl_append

theorem roles_cons (m : Mode) (c : Char) (cs : List Char) : m.roles (c :: cs) = (c, m.role c) :: (m.next c).roles cs := rfl

theorem marks_cons (m : Mode) (c : Char) (cs : List Char) : m.marks (c :: cs) = (c, m.role c) :: (m.next c).marks cs := rfl

/-- The roles of characters in two parts. -/
theorem roles_append (m : Mode) (cs ds : List Char) : m.roles (cs ++ ds) = m.roles cs ++ (m.after cs).roles ds := by
  induction cs generalizing m with
  | nil => rfl
  | cons c cs ih => exact congrArg ((c, m.role c) :: ·) (ih (m.next c))

/-- The marks of a line in two parts. -/
theorem marks_append (m : Mode) (cs ds : List Char) : m.marks (cs ++ ds) = m.roles cs ++ (m.after cs).marks ds := by
  rw [marks, marks, roles_append, after_append, List.append_assoc]

/-- A line that does not end with a backslash has the roles of its characters and nothing else. -/
theorem marks_of_unescaped (h : (m.after cs).escaped = false) : m.marks cs = m.roles cs := by
  rw [marks, h]
  exact List.append_nil _

/-- Outside quotes, characters change how the next one is read only if they open quotes or take it as it is. -/
theorem next_of_unsilent (hc : (role {} c).isSilent = false) : next {} c = {} := by
  rw [next]
  cases hr : role {} c with
  | quote | escape => exact absurd hc (by rw [hr]; decide)
  | _ => rfl

/-- Outside quotes a blank parts words. -/
theorem role_of_isBlank (hc : isBlank c = true) : role {} c = .blank := by
  obtain ⟨h1, h2, h3, h4, h5⟩ := Reading.ne_mark_of_isBlank hc
  simp [role, hc, h1, h2, h3, h4, h5]

/-- Outside quotes a bare character belongs to a word. -/
theorem role_of_isBare (hc : isBare c = true) : role {} c = .letter := by
  obtain ⟨hblank, h1, h2, h3, h4, h5⟩ := Reading.isBare_iff.1 hc
  simp [role, hblank, h1, h2, h3, h4, h5]

/-- Characters that all have one role outside quotes keep it one after the other, unless it changes how the next one is read. -/
theorem roles_of_role {k : Role} (hk : k.isSilent = false) (hcs : ∀ c ∈ cs, role {} c = k) :
    roles {} cs = cs.map (·, k) ∧ after {} cs = {} := by
  induction cs with
  | nil => exact ⟨rfl, rfl⟩
  | cons c cs ih =>
    have first : role {} c = k := hcs c List.mem_cons_self
    have plain : next {} c = {} := next_of_unsilent (first ▸ hk)
    obtain ⟨rest, ends⟩ := ih fun c hc => hcs c (List.mem_cons_of_mem _ hc)
    rw [roles_cons, after_cons, first, plain, rest]
    exact ⟨rfl, ends⟩

/-- Blanks outside quotes are read as blanks. -/
theorem roles_blanks (hcs : ∀ c ∈ cs, isBlank c = true) : roles {} cs = cs.map (·, .blank) ∧ after {} cs = {} :=
  roles_of_role rfl fun c hc => role_of_isBlank (hcs c hc)

/-- The roles are those of all characters, in order. -/
theorem map_fst_roles (m : Mode) (cs : List Char) : (m.roles cs).map (·.1) = cs := by
  induction cs generalizing m with
  | nil => rfl
  | cons c cs ih => exact congrArg (c :: ·) (ih (m.next c))

end Mode

/-! ## Cutting lists -/

section Cutting

variable {α β : Type} {p q : α → Bool} {xs ys : List (List α)}

/-- A list that is set apart from the first ones stays apart. -/
theorem joinEnds_cons (hxs : xs ≠ []) (x : List α) : joinEnds (x :: xs) ys = x :: joinEnds xs ys := by
  obtain ⟨z, zs, rfl⟩ := List.exists_cons_of_ne_nil hxs
  rfl

/-- Nothing to join with leaves the others. -/
theorem joinEnds_nil (hys : ys ≠ []) : joinEnds [[]] ys = ys := by
  obtain ⟨y, ys, rfl⟩ := List.exists_cons_of_ne_nil hys
  rfl

/-- What is joined in two steps is joined in one. -/
theorem joinEnds_joinEnds (x y : List α) (zs : List (List α)) : joinEnds [x] (joinEnds [y] zs) = joinEnds [x ++ y] zs := by
  simp [joinEnds]

/-- A list in two parts is cut as its parts are, with the two ends in the middle joined. -/
theorem splitOnP_append (p : α → Bool) (as bs : List α) : (as ++ bs).splitOnP p = joinEnds (as.splitOnP p) (bs.splitOnP p) := by
  induction as with
  | nil => exact (joinEnds_nil (List.splitOnP_ne_nil p bs)).symm
  | cons a as ih =>
    obtain ⟨z, zs, hz⟩ := List.exists_cons_of_ne_nil (List.splitOnP_ne_nil p as)
    rw [List.cons_append, List.splitOnP_cons_eq_if_modifyHead, List.splitOnP_cons_eq_if_modifyHead, ih, hz]
    split
    · rw [joinEnds_cons (List.cons_ne_nil z zs)]
    · cases zs <;> rfl

/-- Where what is made of a list with `x` in it is made of the parts before and after `x`, the same holds of lists joined at `x`. -/
theorem map_joinEnds {f : List α → List β} {x : α} (hf : ∀ as bs, f (as ++ x :: bs) = f as ++ f bs) (hxs : xs ≠ []) (hys : ys ≠ []) :
    (joinEnds xs (ys.modifyHead (x :: ·))).map f = joinEnds (xs.map f) (ys.map f) := by
  obtain ⟨y, ys, rfl⟩ := List.exists_cons_of_ne_nil hys
  rcases List.eq_nil_or_concat xs with rfl | ⟨zs, z, rfl⟩
  · exact absurd rfl hxs
  · simp [joinEnds, hf]

/-- To leave out what is no place to cut at, before the cut or after it, is the same. -/
theorem splitOnP_filter (h : ∀ a, p a = true → q a = true) (as : List α) :
    (as.filter q).splitOnP p = (as.splitOnP p).map (List.filter q) := by
  induction as with
  | nil => rfl
  | cons a as ih =>
    obtain ⟨z, zs, hz⟩ := List.exists_cons_of_ne_nil (List.splitOnP_ne_nil p as)
    rw [hz] at ih
    rw [List.splitOnP_cons_eq_if_modifyHead, hz]
    by_cases hp : p a = true
    · rw [List.filter_cons_of_pos (h a hp), List.splitOnP_cons_eq_if_modifyHead, if_pos hp, if_pos hp, ih]
      rfl
    · rw [if_neg hp, List.modifyHead_cons, List.map_cons]
      by_cases hq : q a = true
      · rw [List.filter_cons_of_pos hq, List.splitOnP_cons_eq_if_modifyHead, if_neg hp, ih, List.filter_cons_of_pos hq]
        rfl
      · rw [List.filter_cons_of_neg hq, List.filter_cons_of_neg hq]
        exact ih

/-- A list that is cut and put together again has lost the places that it was cut at, and nothing else. -/
theorem flatten_splitOnP (p : α → Bool) (as : List α) : (as.splitOnP p).flatten = as.filter (!p ·) := by
  induction as with
  | nil => rfl
  | cons a as ih =>
    obtain ⟨z, zs, hz⟩ := List.exists_cons_of_ne_nil (List.splitOnP_ne_nil p as)
    rw [List.splitOnP_cons_eq_if_modifyHead]
    by_cases hp : p a = true
    · rw [if_pos hp, List.filter_cons_of_neg (by simp [hp]), ← ih]
      rfl
    · rw [if_neg hp, List.filter_cons_of_pos (by simp [hp]), ← ih, hz]
      rfl

end Cutting

/-! ## Words and segments of a line in parts -/

section Parts

variable {x : Marked} {ms ns : List Marked}

/-- The characters of words, in two parts. -/
theorem letters_append (ms ns : List Marked) : letters (ms ++ ns) = letters ms ++ letters ns := by
  simp [letters]

/-- The characters of words are in the parts between the places where the marks are cut, if no character of a word is such a place. -/
theorem flatMap_letters_splitOnP {p : Marked → Bool} (h : ∀ x : Marked, x.2 = .letter → p x = false) (ms : List Marked) :
    (ms.splitOnP p).flatMap letters = letters ms := by
  have whole : (ms.splitOnP p).flatMap letters = letters (ms.splitOnP p).flatten := by
    induction ms.splitOnP p with
    | nil => rfl
    | cons w ws ih => rw [List.flatMap_cons, ih, List.flatten_cons, letters_append]
  have kept : ∀ x : Marked, (decide (x.2 = .letter) && !p x) = decide (x.2 = .letter) := by
    intro x
    by_cases hx : x.2 = .letter
    · simp [hx, h x hx]
    · simp [hx]
  rw [whole, flatten_splitOnP, letters, List.filter_filter]
  simp only [kept]
  rfl

/-- The words are made of the characters that belong to words, and nothing else. -/
theorem flatMap_toList_wordsIn (ms : List Marked) : (wordsIn ms).flatMap String.toList = letters ms := by
  have word : ∀ cs : List Char, (wordOf cs).flatMap String.toList = cs := by
    intro cs
    cases cs <;> simp [wordOf]
  rw [wordsIn, List.flatMap_assoc]
  simp only [word]
  exact flatMap_letters_splitOnP (fun x hx => by simp [hx]) ms

/-- The segments are made of the characters that belong to words, and nothing else. -/
theorem flatMap_toList_segmentsIn (ms : List Marked) : (segmentsIn ms).flatten.flatMap String.toList = letters ms := by
  rw [segmentsIn, ← List.flatMap_def, List.flatMap_assoc]
  simp only [flatMap_toList_wordsIn]
  exact flatMap_letters_splitOnP (fun x hx => by rw [hx]; rfl) ms

/-- No word is empty. -/
theorem ne_empty_of_mem_wordsIn {a : String} (h : a ∈ wordsIn ms) : a ≠ "" := by
  obtain ⟨w, -, ha⟩ := List.mem_flatMap.1 h
  rw [wordOf_eq] at ha
  simpa using (List.mem_filter.1 ha).2

/-- Where all characters belong to words, they make up a word, unless there are none. -/
theorem wordsIn_of_letters (h : ∀ x ∈ ms, x.2 = .letter) : wordsIn ms = wordOf (ms.map (·.1)) := by
  have whole : ms.splitOnP (·.2 = .blank) = [ms] := List.splitOnP_eq_singleton fun x hx => by simp [h x hx]
  have kept : letters ms = ms.map (·.1) := by
    rw [letters, List.filter_eq_self.2 fun x hx => by simpa using h x hx]
  rw [wordsIn, whole, List.flatMap_singleton, kept]

/-- A blank parts the words before it from those after it. -/
theorem wordsIn_append_blank (hx : x.2 = .blank) (ms ns : List Marked) : wordsIn (ms ++ x :: ns) = wordsIn ms ++ wordsIn ns := by
  rw [wordsIn, List.splitOnP_append_cons ms ns (by simpa using hx), List.flatMap_append]
  rfl

/-- Characters that only say how others are read are in no word. -/
theorem wordsIn_filter (ms : List Marked) : wordsIn (ms.filter (!·.2.isSilent)) = wordsIn ms := by
  have kept : ∀ ms : List Marked, letters (ms.filter (!·.2.isSilent)) = letters ms := by
    intro ms
    rw [letters, List.filter_filter]
    congr 1
    refine List.filter_congr fun x _ => ?_
    cases x.2 <;> rfl
  rw [wordsIn, splitOnP_filter, List.flatMap_map]
  · simp only [kept]
    rfl
  · rintro ⟨c, role⟩ h
    obtain rfl : role = .blank := by simpa using h
    rfl

/-- A character that parts stages parts the segments before it from those after it. -/
theorem segmentsIn_append_cut (hx : x.2.partsStages = true) (ms ns : List Marked) :
    segmentsIn (ms ++ x :: ns) = segmentsIn ms ++ segmentsIn ns := by
  rw [segmentsIn, List.splitOnP_append_cons ms ns hx, List.map_append]
  rfl

/-- There is always a segment. -/
theorem segmentsIn_ne_nil (ms : List Marked) : segmentsIn ms ≠ [] := by
  simp [segmentsIn, List.splitOnP_ne_nil]

/-- A blank parts no segments: the one before it and the one after it are joined. -/
theorem segmentsIn_append_blank (hx : x.2 = .blank) (ms ns : List Marked) :
    segmentsIn (ms ++ x :: ns) = joinEnds (segmentsIn ms) (segmentsIn ns) := by
  have uncut : x.2.partsStages = false := by rw [hx]; rfl
  rw [segmentsIn, splitOnP_append, List.splitOnP_cons_eq_if_modifyHead, if_neg (by simp [uncut])]
  exact map_joinEnds (wordsIn_append_blank hx) (List.splitOnP_ne_nil _ _) (List.splitOnP_ne_nil _ _)

/-- Blanks before a line are in no segment. -/
theorem segmentsIn_blanks (cs : List Char) (ms : List Marked) : segmentsIn (cs.map (·, .blank) ++ ms) = segmentsIn ms := by
  induction cs with
  | nil => rfl
  | cons c cs ih =>
    have apart := segmentsIn_append_blank (x := (c, .blank)) rfl [] (cs.map (·, .blank) ++ ms)
    rw [ih] at apart
    exact apart.trans (joinEnds_nil (segmentsIn_ne_nil ms))

/-- Characters that only say how others are read are in no segment. -/
theorem segmentsIn_filter (ms : List Marked) : segmentsIn (ms.filter (!·.2.isSilent)) = segmentsIn ms := by
  rw [segmentsIn, splitOnP_filter, List.map_map]
  · exact List.map_congr_left fun ms _ => wordsIn_filter ms
  · rintro ⟨c, role⟩ h
    cases role with
    | bar | ampersand => rfl
    | _ => cases h

/-- A character that only says how others are read can be left out. -/
theorem segmentsIn_append_silent (hx : x.2.isSilent = true) (ms ns : List Marked) : segmentsIn (ms ++ x :: ns) = segmentsIn (ms ++ ns) := by
  rw [← segmentsIn_filter (ms ++ x :: ns), ← segmentsIn_filter (ms ++ ns)]
  simp [hx]

/-- Where all characters belong to words, there is one segment. -/
theorem segmentsIn_of_letters (h : ∀ x ∈ ms, x.2 = .letter) : segmentsIn ms = [wordOf (ms.map (·.1))] := by
  have whole : ms.splitOnP (·.2.partsStages) = [ms] := List.splitOnP_eq_singleton fun x hx => by rw [h x hx]; rfl
  rw [segmentsIn, whole, List.map_singleton, wordsIn_of_letters h]

/-- A word is a segment, unless it is empty. -/
theorem segmentsIn_word (cs : List Char) : segmentsIn (cs.map (·, .letter)) = [wordOf cs] := by
  rw [segmentsIn_of_letters (by simp), List.map_map]
  exact congrArg (fun cs => [wordOf cs]) (List.map_id cs)

end Parts

/-! ## Reading by roles -/

namespace Reading

variable {r : Reading} {c : Char}

/-- How a reading takes the next character. -/
def mode (r : Reading) : Mode := { quoting := r.quoting, escaped := r.escaped }

/-- The reading, to go on in this mode. -/
def inMode (r : Reading) (m : Mode) : Reading := { r with quoting := m.quoting, escaped := m.escaped }

/-- What has been read when a character with this role is taken. -/
def take (r : Reading) (c : Char) : Role → Reading
  | .letter => r.extend [c]
  | .quote | .escape => r
  | .blank => r.endWord
  | .bar => r.endStage
  | .ampersand => { r.endStage with background := true }

/-- A reading is plain in the mode that a line begins in. -/
theorem plain_iff : r.Plain ↔ r.mode = {} := by
  constructor
  · rintro ⟨hq, he⟩
    rw [mode, hq, he]
  · intro h
    exact ⟨congrArg Mode.quoting h, congrArg Mode.escaped h⟩

/-- A character is taken as its role says, and decides how the next one is read. -/
theorem step_eq (r : Reading) (c : Char) : r.step c = (r.take c (r.mode.role c)).inMode (r.mode.next c) := by
  obtain ⟨quoting, escaped, background, word, words, stages⟩ := r
  cases escaped with
  | true => rfl
  | false =>
    cases quoting with
    | single =>
      by_cases hs : c = '\'' <;> simp [step, mode, Mode.role, Mode.next, take, inMode, extend, push, hs]
    | double =>
      by_cases he : c = '\\'
      · simp [step, mode, Mode.role, Mode.next, take, inMode, he]
      by_cases hd : c = '"' <;> simp [step, mode, Mode.role, Mode.next, take, inMode, extend, push, he, hd]
    | none =>
      by_cases he : c = '\\'
      · simp [step, mode, Mode.role, Mode.next, take, inMode, he]
      by_cases hs : c = '\''
      · simp [step, mode, Mode.role, Mode.next, take, inMode, hs]
      by_cases hd : c = '"'
      · simp [step, mode, Mode.role, Mode.next, take, inMode, hd]
      by_cases hb : c = '|'
      · simp [step, mode, Mode.role, Mode.next, take, inMode, endStage_eq, hb]
      by_cases ha : c = '&'
      · simp [step, mode, Mode.role, Mode.next, take, inMode, endStage_eq, ha]
      by_cases hw : isBlank c = true
      · simp [step, mode, Mode.role, Mode.next, take, inMode, endWord_eq, he, hs, hd, hb, ha, hw]
      · simp [step, mode, Mode.role, Mode.next, take, inMode, extend, push, he, hs, hd, hb, ha, hw]

/-- The mode after one more character. -/
theorem mode_step (r : Reading) (c : Char) : (r.step c).mode = r.mode.next c := by
  rw [step_eq]
  rfl

/-- The mode after characters. -/
theorem mode_readAll (r : Reading) (cs : List Char) : (r.readAll cs).mode = r.mode.after cs := by
  induction cs generalizing r with
  | nil => rfl
  | cons c cs ih => rw [readAll_cons, ih, mode_step, Mode.after_cons]

/-- The mode at the end of a line. -/
theorem mode_scan (cs : List Char) : (scan cs).mode = Mode.after {} cs := mode_readAll {} cs

/-- One more character marks the line for the background exactly if it is an ampersand that parts stages. -/
theorem background_step (r : Reading) (c : Char) : (r.step c).background = (r.background || r.mode.role c = .ampersand) := by
  rw [step_eq]
  cases r.mode.role c <;> simp [inMode, take, extend, endWord_eq, endStage_eq]

/-- Characters mark the line for the background exactly if one of them is an ampersand that parts stages. -/
theorem background_readAll (r : Reading) (cs : List Char) :
    (r.readAll cs).background = (r.background || (r.mode.roles cs).any (·.2 = .ampersand)) := by
  induction cs generalizing r with
  | nil => exact (Bool.or_false _).symm
  | cons c cs ih => rw [readAll_cons, ih, mode_step, background_step, Mode.roles_cons, List.any_cons, Bool.or_assoc]

/-- The stages that there are when these marks follow up to the end of the line: the finished ones, then the segments from the one that
was begun on, without the empty ones. -/
def outcome (r : Reading) (ms : List Marked) : List (List String) :=
  r.stages ++ (joinEnds [r.words] (segmentsIn (r.word.map (·, .letter) ++ ms))).filter (· ≠ [])

/-- Where nothing follows, the stage that was begun ends. -/
theorem outcome_nil (r : Reading) : r.outcome [] = r.endStage.stages := by
  rw [outcome, List.append_nil, segmentsIn_word, endStage_eq, stageOf_eq]
  rfl

/-- A mark that is taken no longer follows. -/
theorem outcome_take (r : Reading) (c : Char) (role : Role) (ms : List Marked) :
    (r.take c role).outcome ms = r.outcome ((c, role) :: ms) := by
  cases role with
  | letter => simp [outcome, take, extend]
  | quote | escape =>
    rw [outcome, outcome, segmentsIn_append_silent rfl]
    rfl
  | blank =>
    rw [outcome, outcome, segmentsIn_append_blank rfl, segmentsIn_word, joinEnds_joinEnds, take, endWord_eq]
    rfl
  | bar | ampersand =>
    have apart : joinEnds [r.words] ([wordOf r.word] ++ segmentsIn ms) = [r.words ++ wordOf r.word] ++ segmentsIn ms := rfl
    have begun : joinEnds [[]] (segmentsIn ms) = segmentsIn ms := joinEnds_nil (segmentsIn_ne_nil ms)
    rw [outcome, outcome, segmentsIn_append_cut rfl, segmentsIn_word, apart, List.filter_append, ← stageOf_eq, ← List.append_assoc,
      take, endStage_eq]
    exact congrArg (fun ss => r.stages ++ stageOf (r.words ++ wordOf r.word) ++ ss.filter (· ≠ [])) begun

/-- The stages when the line ends after these characters can be told from their marks. -/
theorem finish_readAll (r : Reading) (cs : List Char) : (r.readAll cs).finish.stages = r.outcome (r.mode.marks cs) := by
  induction cs generalizing r with
  | nil =>
    have ends : r.mode.marks [] = if r.escaped then [('\\', Role.letter)] else [] := rfl
    rw [ends, readAll_nil, finish]
    split
    · rw [← outcome_take, outcome_nil]
      rfl
    · rw [outcome_nil]
  | cons c cs ih =>
    rw [readAll_cons, ih, mode_step, Mode.marks_cons, ← outcome_take, step_eq]
    rfl

/-- The stages of a line are its segments, without the empty ones. -/
theorem finish_scan (cs : List Char) : (scan cs).finish.stages = (segmentsIn (Mode.marks {} cs)).filter (· ≠ []) := by
  have read := finish_readAll {} cs
  rwa [outcome, List.map_nil, List.nil_append, List.nil_append, joinEnds_nil (segmentsIn_ne_nil _)] at read

end Reading

/-- The argument lists of a line are its segments, without the empty ones. -/
theorem arguments_ofLine (line : String) :
    (Pipeline.ofLine line).stages.map Stage.arguments = (segments line).filter (· ≠ []) := by
  rw [Pipeline.ofLine, Reading.pipeline, Pipeline.arguments_ofArguments, Reading.finish_scan, List.filter_filter]
  simp only [Bool.and_self]
  rfl

/-- The arguments of a line are made of the characters that belong to words, and nothing else. -/
theorem toList_arguments (line : String) :
    ((Pipeline.ofLine line).stages.flatMap Stage.arguments).flatMap String.toList = letters (Mode.marks {} line.toList) := by
  have arguments : (Pipeline.ofLine line).stages.flatMap Stage.arguments = ((segments line).filter (· ≠ [])).flatten := by
    rw [List.flatMap_def, arguments_ofLine]
  rw [arguments, List.flatten_filter_ne_nil]
  exact flatMap_toList_segmentsIn _

/-- A line of bare characters is one segment of one word. -/
theorem segments_of_bare {line : String} (hne : line ≠ "") (h : ∀ c ∈ line.toList, isBare c = true) : segments line = [[line]] := by
  obtain ⟨roles, ends⟩ := Mode.roles_of_role (k := .letter) rfl fun c hc => Mode.role_of_isBare (h c hc)
  have word : wordOf line.toList = [line] := by
    rw [wordOf_eq, String.ofList_toList]
    simpa using hne
  rw [segments, Mode.marks_of_unescaped (congrArg Mode.escaped ends), roles, segmentsIn_word, word]

/-- A line is for the background exactly if one of its characters is an ampersand that parts stages. -/
theorem background_ofLine (line : String) :
    (Pipeline.ofLine line).background = (Mode.roles {} line.toList).any (·.2 = .ampersand) :=
  Reading.background_readAll {} line.toList

/-- An ampersand and a bar cut three segments; marks in quotes or after a backslash cut nothing, and a last backslash is a character. -/
example : segments "a'|'b  \\& c&|\"d\\" = [["a|b", "&", "c"], [], ["d\\"]] := by decide +kernel

end JobShell
