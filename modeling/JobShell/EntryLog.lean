import JobShell.Environment
import JobShell.Text.Lines

/-!
# The log of entered lines

The lines entered in the interactive loop are kept from one session to the next in a file: a header, then one entry a line, the
oldest first. In an entry a backslash is written twice and an end of line as `\n`. An entry equal to the one before it is not
kept, and only the last hundred entries are.
-/

namespace JobShell

/-- The entries, oldest first, and whether any was made in this session. -/
structure EntryLog where
  entries : List String := []
  changed : Bool := false
  deriving DecidableEq, Repr

namespace EntryLog

/-- How many entries are kept. -/
def limit : Nat := 100

/-- The first line of the file. -/
def header : String := "#V2"

/-- The log with one more line, which may be empty or equal to the last entry and is not kept then. -/
def enter (log : EntryLog) (line : String) : EntryLog :=
  if line.isEmpty || log.entries.getLast? = some line then log
  else { entries := log.entries.drop (log.entries.length + 1 - limit) ++ [line], changed := true }

/-- An entry as it is written. -/
def encode : List Char → List Char
  | [] => []
  | '\\' :: cs => '\\' :: '\\' :: encode cs
  | '\n' :: cs => '\\' :: 'n' :: encode cs
  | c :: cs => c :: encode cs

/-- What an entry stands for, unless it holds a backslash with nothing right after it. -/
def decode? : List Char → Option (List Char)
  | [] => some []
  | '\\' :: '\\' :: cs => (decode? cs).map ('\\' :: ·)
  | '\\' :: 'n' :: cs => (decode? cs).map ('\n' :: ·)
  | '\\' :: _ => none
  | c :: cs => (decode? cs).map (c :: ·)

/-- An entry that is written reads back as itself. -/
theorem decode?_encode (cs : List Char) : decode? (encode cs) = some cs := by
  fun_induction encode cs with
  | case1 => rfl
  | case2 cs ih => simp [decode?, ih]
  | case3 cs ih => simp [decode?, ih]
  | case4 c cs h₁ h₂ ih =>
    rw [decode?.eq_def]
    split <;> simp_all

/-- The text of the file. -/
def text (log : EntryLog) : String :=
  unlines (header :: log.entries.map fun e => String.ofList (encode e.toList))

/-- A line without its end, which is the end of a line with or without a return before it. The last line may have none, and
keeps a return. -/
def withoutEnd (line : String) : String :=
  match line.toList.reverse with
  | '\n' :: '\r' :: cs | '\n' :: cs => String.ofList cs.reverse
  | _ => line

/-- The log that a text of the file stands for. Without the header, the entries stand for themselves. -/
def ofText (text : String) : EntryLog :=
  let lines := (cutLines text).map withoutEnd
  let encoded := lines.head? == some header
  let decode (line : String) : String :=
    if encoded then ((decode? line.toList).map String.ofList).getD line else line
  let log : EntryLog := (if encoded then lines.tail else lines).foldl (fun log line => enter log (decode line)) {}
  { log with changed := false }

/-- The directory of the file. -/
def directory (e : Environment) (home : String) : String :=
  match (e.get? "XDG_DATA_HOME").filter (·.startsWith "/") with
  | some dir => dir ++ "/chirsh"
  | none => (((e.get? "HOME").filter (!·.isEmpty)).getD home) ++ "/.local/share/chirsh"

/-- The name of the file. -/
def file : String := "history.txt"

end EntryLog

end JobShell
