import JobShell.System

/-!
# Commands of a script

A script is made of commands. A simple command is a list of words, with assignments before it and redirections anywhere in it;
the others join commands. A word is a list of parts, each quoted or not: what comes of an unquoted expansion is split into
fields and may stand for names of files, and nothing else is.
-/

namespace JobShell.Machine.Script

/-- What a parameter stands for: a variable, an argument by its place, all arguments as one text or one by one, their number,
the last status, the id of the shell, the id of the last background command, or the options that are set. -/
inductive Parameter where
  | variable (name : String)
  | position (n : Nat)
  | all
  | each
  | count
  | status
  | process
  | background
  | options
  deriving DecidableEq, Repr

/-- What a word beside a parameter is for: to stand in for a value that is missing, to be assigned then too, to be complained
with, or to stand in for a value that is there. -/
inductive Fallback where
  | use | assign | complain | alternative
  deriving DecidableEq, Repr

/-- A part of a word. An output is that of a script, given by its text and the line it starts on. With `orEmpty`, an empty value
counts as missing. -/
inductive WordPart where
  | text (s : String) (quoted : Bool)
  | parameter (p : Parameter) (quoted : Bool)
  | length (p : Parameter) (quoted : Bool)
  | fallback (p : Parameter) (kind : Fallback) (orEmpty : Bool) (word : List WordPart) (quoted : Bool)
  | trimmed (p : Parameter) (fromEnd longest : Bool) (pattern : List WordPart) (quoted : Bool)
  | faulty
  | output (script : String) (line : Nat) (quoted : Bool)
  | arithmetic (word : List WordPart) (quoted : Bool)

/-- A word as it is written. -/
abbrev Word := List WordPart

/-- The word as a plain text, if no part of it is quoted or expanded. -/
def Word.plain? : Word → Option String
  | [.text s false] => some s
  | _ => none

/-- A word with a text at its end; a text is joined to one of the same kind. -/
def Word.addText (w : Word) (s : String) (quoted : Bool) : Word :=
  match w.getLast? with
  | some (.text t q) => if q = quoted then w.dropLast ++ [.text (t ++ s) q] else w ++ [.text s quoted]
  | _ => w ++ [.text s quoted]

/-- How a redirection opens its descriptor: a file to read, to write, to write even where it must not be overwritten, to write
at its end, or to read and write; a copy of another descriptor; or a text that is written in the script itself, which is known
by its number. -/
inductive RedirectionKind where
  | input | output | clobber | append | update | copy
  | document (number : Nat)
  deriving DecidableEq, Repr

/-- A redirection. -/
structure Redirection where
  target : Descriptor
  kind : RedirectionKind
  word : Word

/-- A simple command, and the line it stands on. -/
structure SimpleCommand where
  line : Nat
  assignments : List (String × Word) := []
  words : List Word := []
  redirections : List Redirection := []

/-- A command. -/
inductive Command where
  | simple (c : SimpleCommand)
  | pipeline (stages : List Command)
  | sequence (first second : Command)
  | both (first second : Command)
  | either (first second : Command)
  | negation (c : Command)
  | background (c : Command)
  | subshell (line : Nat) (c : Command) (redirections : List Redirection)
  | redirected (line : Nat) (c : Command) (redirections : List Redirection)
  | choice (condition yes no : Command)
  | loop (until_ : Bool) (condition body : Command)
  | each (line : Nat) (name : String) (words : List Word) (body : Command)
  | select (line : Nat) (word : Word) (branches : List (List Word × Command))
  | define (name : String) (line : Nat) (body : Command)
  | nothing

end JobShell.Machine.Script
