import JobShell.Session

/-!
# The pipes of a pipeline

Between two stages stands a pipe: pipe `i` joins stage `i` to stage `i + 1`. All pipes of a pipeline are made before anything
runs; if one cannot be made, the ones before it are closed again. A pipe is released once, by closing both its ends, when the
shell has no more use for it.
-/

namespace JobShell

/-- A pipe: the descriptor to read from and the one to write to. -/
structure Pipe where
  read : Descriptor
  write : Descriptor
  deriving DecidableEq, Repr

/-- Both ends of a pipe. -/
def Pipe.ends (p : Pipe) : List Descriptor := [p.read, p.write]

/-- The pipes of a pipeline in order; a released one leaves its place empty. -/
structure PipeSet where
  slots : List (Option Pipe) := []
  deriving DecidableEq, Repr

namespace PipeSet

/-- How many pipes were made. -/
def length (p : PipeSet) : Nat := p.slots.length

/-- The pipe at a place, unless it is released. -/
def pipe? (p : PipeSet) (i : Nat) : Option Pipe := (p.slots[i]?).join

/-- Where a stage reads from: the pipe before it. -/
def inputOf (p : PipeSet) : Nat → Option Descriptor
  | 0 => none
  | i + 1 => (p.pipe? i).map (·.read)

/-- Where a stage writes to: the pipe after it. -/
def outputOf (p : PipeSet) (i : Nat) : Option Descriptor := (p.pipe? i).map (·.write)

/-- The descriptors that are still open, in the order of the pipes. -/
def openDescriptors (p : PipeSet) : List Descriptor :=
  p.slots.flatMap fun slot => (slot.map Pipe.ends).getD []

/-- The set with a pipe released, and the descriptors to close. -/
def release (p : PipeSet) (i : Nat) : PipeSet × List Descriptor :=
  ({ slots := p.slots.set i none }, ((p.pipe? i).map Pipe.ends).getD [])

end PipeSet

namespace Act

variable {σ : Type}

/-- Closes descriptors in order. -/
def closeAll (S : System σ) (ds : List Descriptor) : Act σ Unit :=
  tell fun world => ds.foldl (fun world d => S.closeDescriptor d world) world

/-- Makes so many more pipes; the first failure closes all of the set. -/
def openPipesFrom (S : System σ) (made : PipeSet) : Nat → Act σ (Except Errno PipeSet)
  | 0 => pure (.ok made)
  | count + 1 => do
    match ← ask S.makePipe with
    | .ok (read, write) => openPipesFrom S { slots := made.slots ++ [some { read, write }] } count
    | .error e =>
      closeAll S made.openDescriptors
      return .error e

/-- Makes the pipes of a pipeline. -/
def openPipes (S : System σ) (count : Nat) : Act σ (Except Errno PipeSet) :=
  openPipesFrom S {} count

/-- Releases a pipe. -/
def releasePipe (S : System σ) (p : PipeSet) (i : Nat) : Act σ PipeSet := do
  let (p, ds) := p.release i
  closeAll S ds
  return p

end Act

end JobShell
