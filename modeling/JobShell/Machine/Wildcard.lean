import JobShell.Machine.FileSystem

/-!
# Wildcards

A wildcard pattern fits a whole text: `?` stands for one character, `*` for any number of them, and a set in brackets for one
character that is in it or, after `!`, is not. A character of a pattern is active where it may have such a meaning; a quoted
one stands for itself. A backslash that is active takes the meaning away from the character after it.
-/

namespace JobShell.Machine

/-- A character of a pattern, and whether it is active. -/
abbrev PatternChar := Char × Bool

/-- A member of a set: the characters from one to another, or a class with a name. -/
inductive SetMember where
  | range (first last : Char)
  | named (name : String)
  deriving DecidableEq, Repr

/-- One place of a pattern. -/
inductive WildcardItem where
  | literal (c : Char)
  | one
  | many
  | set (negated : Bool) (members : List SetMember)
  deriving DecidableEq, Repr

/-- A character of a class with a name, among the characters of seven bits. -/
def isInClass (name : String) (c : Char) : Bool :=
  let n := c.toNat
  match name with
  | "alpha" => c.isAlpha
  | "digit" => c.isDigit
  | "alnum" => c.isAlphanum
  | "upper" => c.isUpper
  | "lower" => c.isLower
  | "space" => n == 0x20 || (0x09 ≤ n && n ≤ 0x0d)
  | "blank" => n == 0x20 || n == 0x09
  | "punct" => 0x21 ≤ n && n ≤ 0x7e && !c.isAlphanum
  | "print" => 0x20 ≤ n && n ≤ 0x7e
  | "graph" => 0x21 ≤ n && n ≤ 0x7e
  | "cntrl" => n < 0x20 || n == 0x7f
  | "xdigit" => c.isDigit || ('a' ≤ c && c ≤ 'f') || ('A' ≤ c && c ≤ 'F')
  | _ => false

/-- The names of the classes. -/
def classNames : List String :=
  ["alpha", "digit", "alnum", "upper", "lower", "space", "blank", "punct", "print", "graph", "cntrl", "xdigit"]

/-- The character is a member. -/
def SetMember.holds (c : Char) : SetMember → Bool
  | .range first last => first ≤ c && c ≤ last
  | .named name => isInClass name c

/-- The name of a class at the front, after `[:`, and the rest. -/
def className? (cs : List PatternChar) : Option (String × List PatternChar) :=
  let name := cs.takeWhile fun c => c.1 != ':' && c.1 != ']'
  match cs.drop name.length with
  | (':', _) :: (']', _) :: rest => some (String.ofList (name.map (·.1)), rest)
  | _ => none

/-- The members of a set up to the bracket that closes it, and the rest. At most `fuel` members are read, and a bracket that
comes first is a member. -/
def setMembers? : (fuel : Nat) → (first : Bool) → List PatternChar → Option (List SetMember × List PatternChar)
  | 0, _, _ => none
  | _, _, [] => none
  | fuel + 1, first, (c, active) :: cs =>
    let add (m : SetMember) (rest : List PatternChar) : Option (List SetMember × List PatternChar) :=
      (setMembers? fuel false rest).map fun r => (m :: r.1, r.2)
    let single (c : Char) (cs : List PatternChar) : Option (List SetMember × List PatternChar) :=
      match cs with
      | ('-', true) :: (']', true) :: _ => add (.range c c) cs
      | ('-', true) :: ('\\', true) :: (d, _) :: rest => add (.range c d) rest
      | ('-', true) :: (d, _) :: rest => add (.range c d) rest
      | _ => add (.range c c) cs
    if c == ']' && active && !first then some ([], cs)
    else if c == '\\' && active then
      match cs with
      | (d, _) :: rest => single d rest
      | [] => none
    else if c == '[' && active then
      match cs with
      | (':', _) :: rest =>
        match className? rest with
        | some (name, rest) => add (.named name) rest
        | none => single c cs
      | _ => single c cs
    else single c cs

/-- The places of a pattern. At most `fuel` of them are read. -/
def wildcardItems : (fuel : Nat) → List PatternChar → List WildcardItem
  | 0, _ => []
  | _, [] => []
  | fuel + 1, (c, active) :: cs =>
    if !active then .literal c :: wildcardItems fuel cs
    else match c with
      | '?' => .one :: wildcardItems fuel cs
      | '*' => .many :: wildcardItems fuel cs
      | '\\' => match cs with
        | (d, _) :: rest => .literal d :: wildcardItems fuel rest
        | [] => [.literal c]
      | '[' =>
        let (negated, inside) := match cs with
          | ('!', true) :: rest => (true, rest)
          | _ => (false, cs)
        match setMembers? (inside.length + 1) true inside with
        | some (members, rest) => .set negated members :: wildcardItems fuel rest
        | none => .literal c :: wildcardItems fuel cs
      | _ => .literal c :: wildcardItems fuel cs

/-- A pattern that fits whole texts. -/
structure Wildcard where
  items : List WildcardItem
  deriving DecidableEq, Repr

namespace Wildcard

/-- The pattern of some characters. -/
def ofChars (cs : List PatternChar) : Wildcard := { items := wildcardItems cs.length cs }

/-- The pattern of a text in which all characters are active. -/
def ofText (s : String) : Wildcard := ofChars (s.toList.map fun c => (c, true))

/-- The places fit all of the characters. -/
def fitsItems : List WildcardItem → List Char → Bool
  | [], cs => cs.isEmpty
  | .many :: items, cs => fitsItems items cs || match cs with
    | [] => false
    | _ :: cs => fitsItems (.many :: items) cs
  | .literal d :: items, c :: cs => c == d && fitsItems items cs
  | .one :: items, _ :: cs => fitsItems items cs
  | .set negated members :: items, c :: cs => (members.any (·.holds c) != negated) && fitsItems items cs
  | _ :: _, [] => false
termination_by items cs => (items.length, cs.length)

/-- The pattern fits a text. -/
def fits (w : Wildcard) (cs : List Char) : Bool := fitsItems w.items cs

/-- The pattern can fit a name that begins with a dot. -/
def admitsDot (w : Wildcard) : Bool := w.items.head? == some (.literal '.')

/-- Some of the characters are wildcards. -/
def isNeeded (cs : List PatternChar) : Bool := cs.any fun c => c.2 && (c.1 == '*' || c.1 == '?' || c.1 == '[')

/-- A text without the part at one end that the pattern fits, the shortest one or the longest; all of it if no part fits. -/
def trim (w : Wildcard) (fromEnd longest : Bool) (cs : List Char) : List Char :=
  let places := List.range (cs.length + 1)
  let fitsAt (n : Nat) : Bool := w.fits (if fromEnd then cs.drop n else cs.take n)
  match (if fromEnd != longest then places.reverse else places).find? fitsAt with
  | some n => if fromEnd then cs.take n else cs.drop n
  | none => cs

end Wildcard

/-- The characters of a pattern between slashes. -/
def patternNames (cs : List PatternChar) : List (List PatternChar) :=
  cs.foldr (fun c acc => match acc with
    | [] => [[c]]
    | n :: rest => if c.1 == '/' then [] :: n :: rest else (c :: n) :: rest) [[]]

/-- The paths that names which may be patterns lead to, from some paths on, in the order of their octets. -/
def pathsFrom (fs : FileSystem) (cwd : Inode) : (done : List String) → List (List PatternChar) → List String
  | done, [] => done
  | done, name :: rest =>
    let plain := String.ofList (name.map (·.1))
    let joint := if rest.isEmpty then "" else "/"
    let next := done.flatMap fun path =>
      if !Wildcard.isNeeded name then
        if rest.isEmpty && !plain.isEmpty && !(fs.resolve cwd (path ++ plain) false).isOk then [] else [path ++ plain ++ joint]
      else
        let w := Wildcard.ofChars name
        match fs.lookUp cwd (if path.isEmpty then "." else path) true with
        | .ok (i, n) =>
          if !n.isReadable then []
          else
            let names := (if w.admitsDot then [".", ".."] else []) ++ (fs.entries i).map (·.1)
            let fitting := names.filter fun m => w.fits m.toList && (!m.startsWith "." || w.admitsDot)
            let fitting := if rest.isEmpty then fitting
              else fitting.filter fun m => match fs.nodeAt? cwd (path ++ m) with
                | some n => n.isDirectory
                | none => false
            (fitting.mergeSort (· ≤ ·)).map fun m => path ++ m ++ joint
        | .error _ => []
    pathsFrom fs cwd next rest

/-- The paths that a pattern stands for: the ones it leads to, or the pattern itself if there are none. -/
def expandPaths (fs : FileSystem) (cwd : Inode) (cs : List PatternChar) : List String :=
  let plain := String.ofList (cs.map (·.1))
  if !Wildcard.isNeeded cs then [plain]
  else match pathsFrom fs cwd [""] (patternNames cs) with
    | [] => [plain]
    | paths => paths.mergeSort (· ≤ ·)

end JobShell.Machine
