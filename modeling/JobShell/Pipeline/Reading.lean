import JobShell.Pipeline
import JobShell.Text.Blank

/-!
# Reading a command line

A line is read in one pass over its characters. `|` parts stages, `&` parts stages too and marks the whole pipeline as a
background one, and blank characters part words. A backslash takes the next character as it is, except inside single quotes;
quotes of either kind take everything up to the quote that closes them. Every line can be read: open quotes end with the
line, a last backslash stands for itself, and words and stages that came out empty are dropped.
-/

namespace JobShell

/-- Which quotes are open. -/
inductive Quoting where
  | none | single | double
  deriving DecidableEq, Repr

/-- What has been read so far. Words and stages already finished are in order; the word being read is in order too. -/
structure Reading where
  quoting : Quoting := .none
  escaped : Bool := false
  background : Bool := false
  word : List Char := []
  words : List String := []
  stages : List (List String) := []
  deriving DecidableEq, Repr

namespace Reading

/-- One more character of the word. -/
def push (r : Reading) (c : Char) : Reading := { r with word := r.word ++ [c] }

/-- The word ends; an empty one is dropped. -/
def endWord (r : Reading) : Reading :=
  match r.word with
  | [] => r
  | w => { r with word := [], words := r.words ++ [String.ofList w] }

/-- The stage ends, and with it the word; an empty stage is dropped. -/
def endStage (r : Reading) : Reading :=
  let r := r.endWord
  match r.words with
  | [] => r
  | ws => { r with words := [], stages := r.stages ++ [ws] }

/-- One character of the line. -/
def step (r : Reading) (c : Char) : Reading :=
  if r.escaped then { r.push c with escaped := false }
  else match r.quoting with
    | .single => if c == '\'' then { r with quoting := .none } else r.push c
    | .double =>
      if c == '\\' then { r with escaped := true }
      else if c == '"' then { r with quoting := .none }
      else r.push c
    | .none =>
      if c == '\\' then { r with escaped := true }
      else if c == '\'' then { r with quoting := .single }
      else if c == '"' then { r with quoting := .double }
      else if c == '|' then r.endStage
      else if c == '&' then { r.endStage with background := true }
      else if isBlank c then r.endWord
      else r.push c

/-- What is read from these characters. -/
def scan (cs : List Char) : Reading := cs.foldl step {}

/-- The line ends: a backslash without a character after it stands for itself, then the stage ends. -/
def finish (r : Reading) : Reading :=
  (if r.escaped then r.push '\\' else r).endStage

/-- The pipeline that was read. -/
def pipeline (r : Reading) : Pipeline :=
  Pipeline.ofArguments r.finish.stages r.background

end Reading

/-- The pipeline that a line stands for. -/
def Pipeline.ofLine (line : String) : Pipeline :=
  (Reading.scan line.toList).pipeline

/-- The line as a job shows it: trimmed, without the background marks at its end; where nothing is left, the text of the
stages. -/
def Pipeline.commandText (p : Pipeline) (line : String) : String :=
  match dropEndWhile isBlank (dropEndWhile (· == '&') (trimChars line.toList)) with
  | [] => p.stagesText
  | cs => String.ofList cs

end JobShell
