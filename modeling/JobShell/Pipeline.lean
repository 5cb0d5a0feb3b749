/-!
# Pipelines

A pipeline is a list of stages, each the program to run and its operands, and a mark that says whether it runs in the
background. The text of a pipeline joins the arguments by a space and the stages by ` | `; it is for people to read and does
not quote anything.
-/

namespace JobShell

/-- One command of a pipeline: the program and what it is given. -/
structure Stage where
  program : String
  operands : List String := []
  deriving DecidableEq, Repr

namespace Stage

/-- The arguments of a stage, the program first. -/
def arguments (s : Stage) : List String := s.program :: s.operands

/-- The stage with these arguments; there is none without a program. -/
def ofArguments? : List String → Option Stage
  | [] => none
  | program :: operands => some { program, operands }

/-- The arguments joined by a space. -/
def text (s : Stage) : String := " ".intercalate s.arguments

@[simp] theorem ofArguments?_arguments (s : Stage) : ofArguments? s.arguments = some s := rfl

end Stage

/-- Stages that run at once, each reading what the one before it writes. -/
structure Pipeline where
  stages : List Stage := []
  background : Bool := false
  deriving DecidableEq, Repr

namespace Pipeline

/-- The pipeline of these argument lists, without the empty ones. -/
def ofArguments (stages : List (List String)) (background : Bool) : Pipeline :=
  { stages := stages.filterMap Stage.ofArguments?, background }

/-- There is nothing to run. -/
def isEmpty (p : Pipeline) : Bool := p.stages.isEmpty

/-- The only stage, when there is exactly one. -/
def single? (p : Pipeline) : Option Stage :=
  match p.stages with
  | [s] => some s
  | _ => none

/-- The stages joined by ` | `. -/
def stagesText (p : Pipeline) : String := " | ".intercalate (p.stages.map Stage.text)

/-- The stages joined by ` | `, then ` &` for the background. -/
def text (p : Pipeline) : String := p.stagesText ++ if p.background then " &" else ""

end Pipeline

end JobShell
