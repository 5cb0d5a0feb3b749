import JobShell.Machine.Regex.Basic
import JobShell.Text.Numeral

/-!
# Reading regular expressions

An expression is written in one of two ways. In the basic one, groups, counts, choices and the marks for "once or more" and "at
most once" have a backslash, and some marks count only where they can mean something; in the extended one they have none.
-/

namespace JobShell.Machine.Regex

/-- What is wrong with the text of an expression. -/
inductive Fault where
  | openGroup | closedGroup | openSet | badSet | badClass | misplacedClass | badRange | openCount | badCount | bigCount
  | badAgain | trailingBackslash
  deriving DecidableEq

/-- The text of a fault. -/
def Fault.text : Fault → String
  | .openGroup => "Unmatched ( or \\("
  | .closedGroup => "Unmatched ) or \\)"
  | .openSet => "Unmatched [, [^, [:, [., or [="
  | .badSet => "Invalid regular expression"
  | .badClass => "Invalid character class name"
  | .misplacedClass => "character class syntax is [[:space:]], not [:space:]"
  | .badRange => "Invalid range end"
  | .openCount => "Unmatched \\\x7b"
  | .badCount => "Invalid content of \\\x7b\\\x7d"
  | .bigCount => "Regular expression too big"
  | .badAgain => "Invalid back reference"
  | .trailingBackslash => "Trailing backslash"

/-- The highest count. -/
def maxCount : Nat := 32767

/-- What is still to be read, how many groups were opened and which of them are closed, how many are open now, and the marks that
stood where they could mean nothing. -/
structure ReadState where
  rest : List Char
  opened : Nat := 0
  closed : List Nat := []
  depth : Nat := 0
  warnings : List String := []

/-- The members of a set up to its closing bracket, which does not count in the first place, and the rest. -/
def readMembers : (fuel : Nat) → (first : Bool) → List Char → Except Fault (List SetMember × List Char)
  | 0, _, _ => .error .openSet
  | _, _, [] => .error .openSet
  | fuel + 1, first, c :: cs => do
    if c == ']' && !first then .ok ([], cs)
    else
      let special : Except Fault (Option (SetMember × List Char)) := match c, cs with
        | '[', ':' :: more =>
          let name := String.ofList (more.takeWhile fun d => d != ':' && d != ']')
          match more.drop name.length with
          | ':' :: ']' :: rest => if classNames.contains name then .ok (some (.named name, rest)) else .error .badClass
          | _ => .ok none
        | '[', '=' :: d :: '=' :: ']' :: rest => .ok (some (.range d d, rest))
        | _, _ => .ok none
      let m ← special
      match m with
      | some (m, rest) =>
        let (more, rest) ← readMembers fuel false rest
        .ok (m :: more, rest)
      | none =>
        let (a, rest) := match c, cs with
          | '[', '.' :: d :: '.' :: ']' :: rest => (d, rest)
          | _, _ => (c, cs)
        match rest with
        | '-' :: b :: after =>
          let (b, after) := match b, after with
            | '[', '.' :: d :: '.' :: ']' :: after => (d, after)
            | _, _ => (b, after)
          if b == ']' then
            let (more, rest) ← readMembers fuel false rest
            .ok (.range a a :: more, rest)
          else if b < a then .error .badRange
          else
            let (more, rest) ← readMembers fuel false after
            .ok (.range a b :: more, rest)
        | _ =>
          let (more, rest) ← readMembers fuel false rest
          .ok (.range a a :: more, rest)

/-- The set after an opening bracket. -/
def readSet (cs : List Char) : Except Fault (Regex × List Char) := do
  let (negated, cs) := match cs with
    | '^' :: rest => (true, rest)
    | _ => (false, cs)
  if cs.isEmpty then .error .badSet
  else
    let (members, rest) ← readMembers (cs.length + 1) true cs
    let taken := cs.take (cs.length - rest.length - 1)
    if !negated && 2 < taken.length && taken.head? == some ':' && taken.getLast? == some ':' then .error .misplacedClass
    else .ok (.set negated members, rest)

/-- The counts at the front: the least and the greatest number of times, and the rest. -/
def readCounts (cs : List Char) : Option ((Nat × Option Nat) × List Char) :=
  let ds := cs.takeWhile Char.isDigit
  let rest := cs.drop ds.length
  let least := Numeral.digits? ds
  match rest with
  | ',' :: more =>
    let es := more.takeWhile Char.isDigit
    some ((least.getD 0, Numeral.digits? es), more.drop es.length)
  | _ => least.map fun n => ((n, some n), rest)

/-- How an expression is written. -/
structure Style where
  extended : Bool

namespace Style

/-- The rest after a mark, which has a backslash in the basic way. -/
def mark? (s : Style) (c : Char) (cs : List Char) : Option (List Char) :=
  match s.extended, cs with
  | true, d :: rest => if c == d then some rest else none
  | false, '\\' :: d :: rest => if c == d then some rest else none
  | _, _ => none

/-- An expression ends here, or a group or a branch of it. -/
def endsBranch (s : Style) (st : ReadState) : Bool :=
  st.rest.isEmpty || (s.mark? '|' st.rest).isSome || ((s.mark? ')' st.rest).isSome && (0 < st.depth || !s.extended))

/-- The repetition at the front: how often, and the rest. In the extended way, a brace that begins no count stands for itself. -/
def repetition? (s : Style) (cs : List Char) : Except Fault (Option ((Nat × Option Nat) × List Char)) :=
  match cs with
  | '*' :: rest => .ok (some ((0, none), rest))
  | _ =>
    match s.mark? '+' cs, s.mark? '?' cs, s.mark? '\x7b' cs with
    | some rest, _, _ => .ok (some ((1, none), rest))
    | _, some rest, _ => .ok (some ((0, some 1), rest))
    | _, _, some rest =>
      let closing (after : List Char) : Option (List Char) := s.mark? '\x7d' after
      match readCounts rest with
      | none =>
        if s.extended then .ok none
        else if rest.isEmpty then .error .openCount else .error .badCount
      | some ((least, most), after) =>
        match closing after with
        | none =>
          if s.extended then .ok none
          else if after.isEmpty then .error .openCount else .error .badCount
        | some after =>
          if most.any fun m => m < least then .error .badCount
          else if maxCount < least || most.any fun m => maxCount < m then .error .bigCount
          else .ok (some ((least, most), after))
    | _, _, _ => .ok none

/-- Puts the repetitions after an expression around it. At most `fuel` are read. -/
def readRepetitions (s : Style) : (fuel : Nat) → Regex → List Char → Except Fault (Regex × List Char)
  | 0, r, cs => .ok (r, cs)
  | fuel + 1, r, cs => do
    match ← s.repetition? cs with
    | some ((least, most), rest) => readRepetitions s fuel (.repeated r least most) rest
    | none => .ok (r, cs)

/-- What a letter after a backslash means in both ways. -/
def letter? : Char → Option Regex
  | 'w' => some (.set false [.named "alnum", .range '_' '_'])
  | 'W' => some (.set true [.named "alnum", .range '_' '_'])
  | 's' => some (.set false [.named "space"])
  | 'S' => some (.set true [.named "space"])
  | 'b' => some (.place .wordEdge)
  | 'B' => some (.place .wordInside)
  | '<' => some (.place .wordStart)
  | '>' => some (.place .wordFinish)
  | '\x60' => some (.place .start)
  | '\'' => some (.place .finish)
  | _ => none

mutual

/-- The branches of an expression or a group. -/
def readChoice (s : Style) : (fuel : Nat) → ReadState → Except Fault (Regex × ReadState)
  | 0, st => .ok (.empty, st)
  | fuel + 1, st => do
    let (r, st) ← s.readSequence fuel true st
    match s.mark? '|' st.rest with
    | some rest =>
      let (q, st) ← s.readChoice fuel { st with rest }
      .ok (.choice r q, st)
    | none => .ok (r, st)

/-- One branch. `first` says that nothing of it was read yet. -/
def readSequence (s : Style) : (fuel : Nat) → (first : Bool) → ReadState → Except Fault (Regex × ReadState)
  | 0, _, st => .ok (.empty, st)
  | fuel + 1, first, st => do
    if s.endsBranch st then .ok (.empty, st)
    else
      match st.rest, first && s.extended with
      | c :: _, true =>
        match ← s.repetition? st.rest with
        | some (_, rest) =>
          let mark := if c == '\x7b' then "\x7b...\x7d" else String.singleton c
          s.readSequence fuel true
            { st with rest, warnings := st.warnings ++ ["warning: " ++ mark ++ " at start of expression"] }
        | none => s.readOne fuel first st
      | _, _ => s.readOne fuel first st

/-- One piece of a branch with its repetitions, and the pieces after it. -/
def readOne (s : Style) : (fuel : Nat) → (first : Bool) → ReadState → Except Fault (Regex × ReadState)
  | 0, _, st => .ok (.empty, st)
  | fuel + 1, first, st => do
    let (r, st) ← s.readAtom fuel first st
    let isAnchor := match r with
      | .place .start => true
      | _ => false
    if isAnchor then
      let (q, st) ← s.readSequence fuel true st
      .ok (.sequence r q, st)
    else
      let (r, rest) ← s.readRepetitions st.rest.length r st.rest
      let (q, st) ← s.readSequence fuel false { st with rest }
      .ok (.sequence r q, st)

/-- One piece of a branch. -/
def readAtom (s : Style) : (fuel : Nat) → (first : Bool) → ReadState → Except Fault (Regex × ReadState)
  | 0, _, st => .ok (.empty, st)
  | fuel + 1, first, st => do
    match s.mark? '(' st.rest with
    | some rest =>
      let n := st.opened + 1
      let (r, st) ← s.readChoice fuel { st with rest, opened := n, depth := st.depth + 1 }
      match s.mark? ')' st.rest with
      | some rest => .ok (.group n r, { st with rest, depth := st.depth - 1, closed := n :: st.closed })
      | none => .error .openGroup
    | none =>
      match st.rest with
      | '\\' :: [] => .error .trailingBackslash
      | '\\' :: c :: rest =>
        if c.isDigit && c != '0' then
          let n := c.toNat - '0'.toNat
          if st.closed.contains n then .ok (.again n, { st with rest }) else .error .badAgain
        else .ok ((letter? c).getD (.octet c), { st with rest })
      | '[' :: rest => do
        let (r, rest) ← readSet rest
        .ok (r, { st with rest })
      | '.' :: rest => .ok (.any, { st with rest })
      | '^' :: rest => .ok (if s.extended || first then .place .start else .octet '^', { st with rest })
      | '$' :: rest =>
        .ok (if s.extended || s.endsBranch { st with rest } then .place .finish else .octet '$', { st with rest })
      | c :: rest => .ok (.octet c, { st with rest })
      | [] => .ok (.empty, st)

end

end Style

/-- The expression that a text is, with warnings about marks that mean nothing. -/
def read (style : Style) (text : String) : Except Fault (Regex × List String) := do
  let (r, st) ← style.readChoice (8 * text.length + 8) { rest := text.toList }
  if st.rest.isEmpty then .ok (r, st.warnings) else .error .closedGroup

end JobShell.Machine.Regex
