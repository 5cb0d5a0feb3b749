import JobShell.Machine.Wildcard

/-!
# Regular expressions

A regular expression fits stretches of a line. From every place there may be several ends; the longest stretch that begins
first is the one that counts. What groups have taken is remembered, because the expression may ask for the same text again.
-/

namespace JobShell.Machine

/-- A place between octets that an expression may ask for: the beginning or the end of the line, a place between a word and
something else, any other place, or the beginning or the end of a word. -/
inductive LinePlace where
  | start | finish | wordEdge | wordInside | wordStart | wordFinish
  deriving DecidableEq

/-- A regular expression. -/
inductive Regex where
  | empty
  | octet (c : Char)
  | any
  | set (negated : Bool) (members : List SetMember)
  | place (p : LinePlace)
  | sequence (a b : Regex)
  | choice (a b : Regex)
  | repeated (a : Regex) (least : Nat) (most : Option Nat)
  | group (n : Nat) (a : Regex)
  | again (n : Nat)

namespace Regex

/-- An octet that words are made of. -/
def isWordChar (c : Char) : Bool := c.isAlphanum || c == '_'

/-- A place that was reached in a line, and where the groups begin and end that were passed. -/
structure Reached where
  at_ : Nat
  groups : List (Nat × Nat × Nat) := []
  deriving DecidableEq

/-- A line, and whether case counts. -/
structure Subject where
  line : Array Char
  folds : Bool := false

namespace Subject

/-- An octet as it is compared. -/
def fold (s : Subject) (c : Char) : Char := if s.folds then c.toLower else c

/-- There is a word before a place, and one after it. -/
def wordBefore (s : Subject) (i : Nat) : Bool := 0 < i && (s.line[i - 1]?).any isWordChar
def wordAfter (s : Subject) (i : Nat) : Bool := (s.line[i]?).any isWordChar

/-- A place is what was asked for. -/
def isAt (s : Subject) (i : Nat) : LinePlace → Bool
  | .start => i == 0
  | .finish => i == s.line.size
  | .wordEdge => s.wordBefore i != s.wordAfter i
  | .wordInside => s.wordBefore i == s.wordAfter i
  | .wordStart => !s.wordBefore i && s.wordAfter i
  | .wordFinish => s.wordBefore i && !s.wordAfter i

/-- An octet is one of the members. -/
def holds (s : Subject) (members : List SetMember) (c : Char) : Bool :=
  members.any (·.holds c) || (s.folds && (members.any (·.holds c.toLower) || members.any (·.holds c.toUpper)))

/-- The place after the octet there, if it is one that is wanted. -/
def stepOver (s : Subject) (wanted : Char → Bool) (r : Reached) : List Reached :=
  match s.line[r.at_]? with
  | some c => if wanted c then [{ r with at_ := r.at_ + 1 }] else []
  | none => []

/-- The place after the text that a group took, if the same text is there. -/
def stepAgain (s : Subject) (n : Nat) (r : Reached) : List Reached :=
  match r.groups.lookup n with
  | none => []
  | some (first, last) =>
    let fits := (List.range (last - first)).all fun k =>
      ((s.line[first + k]?).map s.fold) == ((s.line[r.at_ + k]?).map s.fold)
    if fits then [{ r with at_ := r.at_ + (last - first) }] else []

end Subject

/-- All that can be reached by going on again and again, at most `fuel` times, and what was there before. -/
def spread (go : List Reached → List Reached) : (fuel : Nat) → (all fresh : List Reached) → List Reached
  | 0, all, _ => all
  | fuel + 1, all, fresh =>
    let next := (go fresh).eraseDups.filter fun r => !all.contains r
    if next.isEmpty then all else spread go fuel (all ++ next) next

/-- What can be reached by going on so many times. -/
def goOn (go : List Reached → List Reached) : (times : Nat) → List Reached → List Reached
  | 0, rs => rs
  | n + 1, rs => goOn go n (go rs).eraseDups

/-- All that an expression can reach from some places. -/
def reach (s : Subject) : Regex → List Reached → List Reached
  | .empty, rs => rs
  | .octet c, rs => rs.flatMap (s.stepOver fun d => s.fold c == s.fold d)
  | .any, rs => rs.flatMap (s.stepOver fun _ => true)
  | .set negated members, rs => rs.flatMap (s.stepOver fun d => s.holds members d != negated)
  | .place p, rs => rs.filter fun r => s.isAt r.at_ p
  | .sequence a b, rs => b.reach s (a.reach s rs)
  | .choice a b, rs => (a.reach s rs ++ b.reach s rs).eraseDups
  | .repeated a least most, rs =>
    let first := goOn (a.reach s) least rs
    match most with
    | none => spread (a.reach s) (s.line.size + 1) first first
    | some most => spread (a.reach s) (most - least) first first
  | .group n a, rs => rs.flatMap fun r =>
      (a.reach s [r]).map fun (q : Reached) => { q with groups := (n, r.at_, q.at_) :: q.groups.filter (·.1 != n) }
  | .again n, rs => rs.flatMap (s.stepAgain n)

/-- The ends of all stretches that begin at a place, with their groups, the longest first. -/
def ends (r : Regex) (s : Subject) (from_ : Nat) : List Reached :=
  (r.reach s [{ at_ := from_ }]).mergeSort fun a b => b.at_ ≤ a.at_

/-- A stretch of a line that an expression fits. -/
structure Found where
  first : Nat
  last : Nat
  groups : List (Nat × Nat × Nat) := []

/-- The first stretch from a place on that an expression fits and that is wanted, the longest one of several. At most `steps`
places are tried. -/
def find? (r : Regex) (s : Subject) (wanted : Nat → Nat → Bool) : (steps : Nat) → (from_ : Nat) → Option Found
  | 0, _ => none
  | steps + 1, i =>
    if s.line.size < i then none
    else match (r.ends s i).find? fun e => wanted i e.at_ with
      | some e => some { first := i, last := e.at_, groups := e.groups }
      | none => r.find? s wanted steps (i + 1)

/-- The first stretch from a place on that an expression fits, the longest one of several. -/
def first? (r : Regex) (s : Subject) (from_ : Nat) : Option Found :=
  r.find? s (fun _ _ => true) (s.line.size + 1 - from_) from_

end Regex

end JobShell.Machine
