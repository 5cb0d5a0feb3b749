/-!
# Lines

A text is a sequence of lines, each with the end of line that closes it; the last one may have none. `cutLines` cuts a text
after each end of line.
-/

namespace JobShell

/-- The characters up to and with the first end of line, and the rest. -/
def cutLine : List Char → List Char × List Char
  | [] => ([], [])
  | '\n' :: rest => (['\n'], rest)
  | c :: rest => (c :: (cutLine rest).1, (cutLine rest).2)

/-- The lines of a text, each with its end of line. -/
def cutLines (text : String) : List String :=
  (text.toList.foldr step []).map String.ofList
where
  /-- One character more at the front. -/
  step (c : Char) : List (List Char) → List (List Char)
    | [] => [[c]]
    | line :: rest => if c == '\n' then ['\n'] :: line :: rest else (c :: line) :: rest

/-- The lines of a text without their ends of line. -/
def linesOf (text : String) : List String :=
  (cutLines text).map fun l => if l.endsWith "\n" then (l.dropEnd 1).toString else l

/-- Each line followed by an end of line. -/
def unlines (lines : List String) : String := String.join (lines.map (· ++ "\n"))

end JobShell
