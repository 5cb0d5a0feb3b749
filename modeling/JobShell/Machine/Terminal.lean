import JobShell.Job

/-!
# A terminal

A terminal gathers the octets that are typed into lines. A line can be read when it is complete; a mark of the end makes what is
typed so far readable as it is, and nothing at all is the end of the input. Some keys edit the line, some hold the output back
and let it go on, and some are signals to the group in the foreground, which do away with all that has been typed. A key after
`^V` stands for itself. There is no echo.

Across from the terminal sits somebody with a list of things to do: to wait until a text has appeared, and then to type.
-/

namespace JobShell.Machine

/-- A terminal. `chunks` can be read one by one; `typed` is the line at work, its last octet first. `seen` counts the octets of
the output in which texts waited for have been found already. `owner` is the session that the terminal belongs to. -/
structure Terminal where
  foreground : Pid
  owner : Option Pid
  typed : List Char := []
  literal : Bool := false
  chunks : List (List Char) := []
  paused : Bool := false
  output : List Char := []
  dialog : List (String × String) := []
  seen : Nat := 0

namespace Terminal

/-- The signal of a key. -/
def keySignal? (c : Char) : Option Signal :=
  if c == '\x03' then some .int else if c == '\x1c' then some .quit else if c == '\x1a' then some .tstp else none

/-- An octet of a word, for the key that erases the last word. -/
def isWordOctet (c : Char) : Bool :=
  c.isAlphanum || c == '_' || (0xc0 ≤ c.toNat && c != '\xd7' && c != '\xf7')

/-- The most that a line may hold before its end. -/
def lineCapacity : Nat := 4095

/-- The terminal with one more octet in its line; what is too much takes the place of the last one. -/
def add (t : Terminal) (c : Char) : Terminal :=
  { t with typed := if lineCapacity < t.typed.length then c :: t.typed.tail else c :: t.typed }

/-- The terminal with its line complete. -/
def complete (t : Terminal) (ending : List Char) : Terminal :=
  { t with typed := [], chunks := t.chunks ++ [(t.typed.drop (t.typed.length - lineCapacity)).reverse ++ ending] }

/-- The line without its last word, and without what follows that word. -/
def eraseWord (typed : List Char) : List Char := (typed.dropWhile fun c => !isWordOctet c).dropWhile isWordOctet

/-- The terminal after a key that is no signal. -/
def typeKey (t : Terminal) (c : Char) : Terminal :=
  if t.literal then { t.add c with literal := false }
  else if c == '\n' || c == '\r' then t.complete ['\n']
  else if c == '\x04' then t.complete []
  else if c == '\x7f' then { t with typed := t.typed.tail }
  else if c == '\x15' then { t with typed := [] }
  else if c == '\x17' then { t with typed := eraseWord t.typed }
  else if c == '\x16' then { t with literal := true }
  else if c == '\x13' then { t with paused := true }
  else if c == '\x11' then { t with paused := false }
  else t.add c

/-- The terminal without anything typed, and with its output going on. -/
def flush (t : Terminal) : Terminal := { t with typed := [], chunks := [], paused := false }

/-- The place right after a text in some octets. -/
def endOf? (text : List Char) : List Char → Option Nat
  | [] => if text.isEmpty then some 0 else none
  | c :: cs => if text.isPrefixOf (c :: cs) then some text.length else (endOf? text cs).map (· + 1)

/-- What is typed next, and the terminal after that; nothing while the text waited for has not appeared. -/
def next? (t : Terminal) : Option (String × Terminal) :=
  match t.dialog with
  | [] => none
  | (until_, send) :: rest =>
    (endOf? until_.toList (t.output.drop t.seen)).map fun n => (send, { t with dialog := rest, seen := t.seen + n })

/-- The terminal after a text was written to it. -/
def write (t : Terminal) (text : String) : Terminal := { t with output := t.output ++ text.toList }

end Terminal

end JobShell.Machine
