import JobShell.Text.ClusterBreak

/-!
# Clusters

What a reader takes for one character may be several: a letter with its accents, a syllable, a flag, a family of pictographs.
`clusters` cuts characters into such clusters, after the default rules of Unicode, and loses nothing (`clusters_flatten`).
-/

namespace JobShell

/-- What a character means for the place where a cluster ends. -/
inductive BreakClass where
  | carriageReturn | lineFeed | control
  | extender | linker | nonJoiner | joiner | spacingMark | prepended
  | regional | leading | vowel | trailing | openSyllable | closedSyllable
  | pictograph | consonant | other
  deriving DecidableEq, Repr

namespace BreakClass

open ClusterBreak

/-- The class of a character. -/
def of (c : Char) : BreakClass :=
  let n := c.toNat
  if n = 0x0d then .carriageReturn
  else if n = 0x0a then .lineFeed
  else if 0x20 ≤ n && n < 0x7f then .other
  else if n = 0x200c then .nonJoiner
  else if n = 0x200d then .joiner
  else if 0x1f1e6 ≤ n && n ≤ 0x1f1ff then .regional
  else if (0x1100 ≤ n && n ≤ 0x115f) || (0xa960 ≤ n && n ≤ 0xa97c) then .leading
  else if (0x1160 ≤ n && n ≤ 0x11a7) || (0xd7b0 ≤ n && n ≤ 0xd7c6) || n = 0x16d63 || (0x16d67 ≤ n && n ≤ 0x16d6a) then .vowel
  else if (0x11a8 ≤ n && n ≤ 0x11ff) || (0xd7cb ≤ n && n ≤ 0xd7fb) then .trailing
  else if 0xac00 ≤ n && n ≤ 0xd7a3 then if (n - 0xac00) % 28 = 0 then .openSyllable else .closedSyllable
  else if isIn linkerRanges n then .linker
  else if isIn extenderRanges n then .extender
  else if isIn controlRanges n then .control
  else if isIn spacingMarkRanges n then .spacingMark
  else if isIn prependedRanges n then .prepended
  else if isIn pictographRanges n then .pictograph
  else if isIn consonantRanges n then .consonant
  else .other

end BreakClass

/-- How far something has come that goes on after a joiner or a linker: not begun, begun, or waiting for its next part. -/
inductive Bond where
  | none | begun | tied
  deriving DecidableEq, Repr

/-- The end of the cluster at work: the class of its last character, whether the regional indicators at its end are odd in
number, and how far a bond of pictographs and a bond of consonants have come. -/
structure ClusterEnd where
  last : BreakClass
  oddRegionals : Bool := false
  pictographs : Bond := .none
  consonants : Bond := .none
  deriving DecidableEq, Repr

namespace ClusterEnd

/-- The end of the cluster after one more character. -/
def after (e : ClusterEnd) (k : BreakClass) : ClusterEnd where
  last := k
  oddRegionals := k = .regional && !e.oddRegionals
  pictographs := match k, e.pictographs with
    | .pictograph, _ => .begun
    | .extender, .begun | .linker, .begun | .nonJoiner, .begun => .begun
    | .joiner, .begun => .tied
    | _, _ => .none
  consonants := match k, e.consonants with
    | .consonant, _ => .begun
    | .linker, .begun | .linker, .tied => .tied
    | .extender, b | .joiner, b => b
    | _, _ => .none

/-- The end of a cluster of one character. -/
def start (k : BreakClass) : ClusterEnd := after { last := .other } k

/-- The cluster goes on with a character of this class. -/
def goesOn (e : ClusterEnd) (k : BreakClass) : Bool :=
  match e.last, k with
  | .carriageReturn, .lineFeed => true
  | .carriageReturn, _ | .lineFeed, _ | .control, _ => false
  | _, .carriageReturn | _, .lineFeed | _, .control => false
  | _, .extender | _, .linker | _, .nonJoiner | _, .joiner | _, .spacingMark => true
  | .prepended, _ => true
  | .leading, .leading | .leading, .vowel | .leading, .openSyllable | .leading, .closedSyllable => true
  | .openSyllable, .vowel | .openSyllable, .trailing | .vowel, .vowel | .vowel, .trailing => true
  | .closedSyllable, .trailing | .trailing, .trailing => true
  | _, .pictograph => e.pictographs = .tied
  | _, .consonant => e.consonants = .tied
  | .regional, .regional => e.oddRegionals
  | _, _ => false

end ClusterEnd

/-- The rest of the cluster at work, and the clusters after it. -/
def clustersAfter (e : ClusterEnd) : List Char → List Char × List (List Char)
  | [] => ([], [])
  | c :: cs =>
    let k := BreakClass.of c
    if e.goesOn k then
      let (more, rest) := clustersAfter (e.after k) cs
      (c :: more, rest)
    else
      let (more, rest) := clustersAfter (.start k) cs
      ([], (c :: more) :: rest)

/-- The clusters of some characters. -/
def clusters (cs : List Char) : List (List Char) := (clustersAfter { last := .control } cs).2

theorem clustersAfter_flatten (e : ClusterEnd) (cs : List Char) :
    (clustersAfter e cs).1 ++ (clustersAfter e cs).2.flatten = cs := by
  induction cs generalizing e with
  | nil => rfl
  | cons c cs ih =>
    by_cases h : e.goesOn (BreakClass.of c) = true
    · simpa [clustersAfter, h] using ih _
    · simpa [clustersAfter, h] using ih _

theorem goesOn_control (k : BreakClass) : ClusterEnd.goesOn { last := .control } k = false := by cases k <;> rfl

/-- The clusters hold all characters in their order. -/
theorem clusters_flatten (cs : List Char) : (clusters cs).flatten = cs := by
  cases cs with
  | nil => rfl
  | cons c cs =>
    have h := clustersAfter_flatten { last := .control } (c :: cs)
    simpa [clusters, clustersAfter, goesOn_control] using h

end JobShell
