import JobShell.Machine.Script.Command
import JobShell.Text.Numeral

/-!
# Tokens of a script

The text that is still to be read of a script makes words and operators; blanks and comments part them. A text that may be
followed by more, because its writer has not finished, is not read beyond its end: the reader then asks for more of it.
-/

namespace JobShell.Machine.Script

/-- Why a script cannot be read: a fault on a line, or that more of the text is needed. -/
inductive Fault where
  | at (line : Nat) (text : String)
  | incomplete
  deriving DecidableEq, Repr

/-- A token: a word, an operator, a redirection with its descriptor, the end of a line or of the text. -/
inductive Token where
  | word (w : Word)
  | operator (text : String)
  | redirection (target : Option Descriptor) (text : String)
  | endOfLine
  | endOfText

/-- A document that is announced but not read yet: its number, the line that ends it, whether it is taken literally, and whether
tabs before its lines are dropped. -/
structure Announcement where
  number : Nat
  ending : String
  literal : Bool
  dropsTabs : Bool

/-- What is still to be read of a script. A token that was read too early is put back in `held`. The value of an alias that is
being read ends where as many characters are left as `aliased` says with its name. -/
structure Source where
  rest : List Char
  line : Nat := 1
  isOpen : Bool := false
  held : Option Token := none
  announced : List Announcement := []
  documents : List (Nat × Word) := []
  nextDocument : Nat := 0
  aliases : List (String × String) := []
  aliased : List (String × Nat) := []

/-- Something that is read from a source. -/
abbrev Reader := StateT Source (Except Fault)

namespace Reader

/-- The source cannot be read. -/
def fault (text : String) : Reader α := do throw (.at (← get).line text)

/-- The next character, if there is one. More text is asked for where it may come. -/
def peek : Reader (Option Char) := do
  let s ← get
  match s.rest with
  | c :: _ => return some c
  | [] => if s.isOpen then throw .incomplete else return none

/-- Goes past one character, and counts lines. -/
def skip : Reader Unit := modify fun s =>
  match s.rest with
  | '\n' :: cs => { s with rest := cs, line := s.line + 1 }
  | cs => { s with rest := cs.tail }

/-- Takes the next character. -/
def next : Reader (Option Char) := do
  let c ← peek
  if c.isSome then skip
  return c

/-- Takes the characters at the front that satisfy `p`. -/
def takeWhile (p : Char → Bool) : Reader (List Char) := do
  let s ← get
  let taken := s.rest.takeWhile p
  set { s with rest := s.rest.drop taken.length, line := s.line + taken.count '\n' }
  return taken

/-- Goes past the ends of lines that a backslash takes away. -/
def skipJoints : (fuel : Nat) → Reader Unit
  | 0 => pure ()
  | fuel + 1 => do
    match (← get).rest with
    | '\\' :: '\n' :: cs =>
      modify fun s => { s with rest := cs, line := s.line + 1 }
      skipJoints fuel
    | ['\\'] => if (← get).isOpen then throw .incomplete
    | _ => pure ()

/-- The next character after ends of lines that a backslash takes away. -/
def peekJoined : Reader (Option Char) := do
  skipJoints (← get).rest.length
  peek

/-- Takes the character at the front if it is this one. -/
def accept (c : Char) : Reader Bool := do
  if (← peekJoined) == some c then
    skip
    return true
  else return false

end Reader

/-- A character of a name, not at its start. -/
def isNameChar (c : Char) : Bool := c.isAlphanum || c == '_'

/-- A character at the start of a name. -/
def isNameStart (c : Char) : Bool := c.isAlpha || c == '_'

/-- A text is a name: letters, digits and underscores, no digit first. -/
def isName (s : String) : Bool :=
  match s.toList with
  | [] => false
  | c :: cs => isNameStart c && cs.all isNameChar

/-- The parameter that a single character other than a letter or a digit stands for. -/
def specialParameter? : Char → Option Parameter
  | '$' => some .process
  | '?' => some .status
  | '#' => some .count
  | '@' => some .each
  | '*' => some .all
  | '!' => some .background
  | '-' => some .options
  | _ => none

/-- A character that ends a word. -/
def isWordEnd (c : Char) : Bool := " \t\n;&|<>()".toList.contains c

/-- How a part of a word is read: between quotes or not, and what ends it: the end of the word, a quote, the brace of a
parameter, the two brackets of an arithmetic expression, or the end of a document. -/
inductive Ending where
  | word | quote | brace | brackets | document
  deriving DecidableEq, Repr

/-- A character with a meaning of its own in a part of a word. -/
def isActive (quoted : Bool) (ending : Ending) (c : Char) : Bool :=
  c == '\\' || c == '$' || c == '\x60' || (c == '"' && ending != .brackets && ending != .document) ||
    (c == '\'' && !quoted) || (c == '}' && ending == .brace) || (ending == .word && isWordEnd c) ||
    ((c == '(' || c == ')') && ending == .brackets)

/-- A character that stands for itself between double quotes if a backslash is before it. -/
def isEscapable (ending : Ending) (c : Char) : Bool :=
  c == '\\' || c == '\x60' || c == '$' || (c == '"' && ending != .document) || (c == '}' && ending == .brace)

/-- The assignment that a word is: a name, an equals sign, and the rest of the word. -/
def assignmentOf? : Word → Option (String × Word)
  | .text s false :: parts =>
    let name := String.ofList (s.toList.takeWhile (· != '='))
    match s.toList.dropWhile (· != '=') with
    | [] => none
    | _ :: value =>
      if isName name then some (name, if value.isEmpty then parts else .text (String.ofList value) false :: parts) else none
  | _ => none

/-- The operators, longer ones before the ones they begin with. -/
def operators : List String := ["&&", "||", ";;", ";", "&", "|", "(", ")"]

/-- The operators of redirections, longer ones before the ones they begin with. -/
def redirectionOperators : List String := ["<<-", "<<", "<&", "<>", "<", ">>", ">&", ">|", ">"]

end JobShell.Machine.Script
