import JobShell.Machine.Program
import JobShell.Machine.Script.Arithmetic
import JobShell.Machine.Wildcard
import JobShell.Text.Blank

/-!
# Expansion

A word of a script becomes fields: each parameter gives way to its value, each script in it to what it writes, each arithmetic
expression to its value. What comes of an unquoted expansion is split into fields, and wildcards that are not quoted stand for
the paths they fit. A word of quoted parts is one field, even an empty one; a word of unquoted expansions without any value is
no field at all. Since a script in a word has to run, an expansion is a program that goes on with its result.
-/

namespace JobShell.Machine.Script

/-- Where a character of an expanded word comes from: the word as it is written, quotes, or an unquoted expansion. -/
inductive Mark where
  | literal | quoted | expanded
  deriving DecidableEq

/-- A piece of an expanded word: a character, the place of quotes, or a place where a field ends. -/
inductive Piece where
  | char (c : Char) (m : Mark)
  | quotes
  | gap

/-- The pieces of a text. -/
def piecesOf (s : String) (m : Mark) : List Piece := s.toList.map fun c => .char c m

/-- The text of some pieces. -/
def textOf (ps : List Piece) : String :=
  String.ofList (ps.filterMap fun
    | .char c _ => some c
    | .quotes => none
    | .gap => some ' ')

/-- The pattern that some pieces are. -/
def patternOf (ps : List Piece) : List PatternChar :=
  ps.filterMap fun
    | .char c m => some (c, m != .quoted)
    | .quotes => none
    | .gap => some (' ', false)

/-- The fields at work when pieces are cut into fields: the ones that are finished, last first, the one at work with its last
character first, and whether a blank ended the last one. -/
structure Cutting where
  done : List (List PatternChar) := []
  current : Option (List PatternChar) := none
  afterBlank : Bool := false

namespace Cutting

/-- The field at work ends. -/
def finish (f : Cutting) (afterBlank : Bool) : Cutting :=
  match f.current with
  | some cs => { done := cs.reverse :: f.done, current := none, afterBlank }
  | none => f

/-- One more piece. Blanks among the separators part fields but make none; any other separator ends a field, even an empty
one. -/
def add (separators : List Char) (f : Cutting) : Piece → Cutting
  | .quotes => { f with current := some (f.current.getD []) }
  | .gap => { f.finish false with afterBlank := false }
  | .char c m =>
    if m = .expanded && separators.contains c then
      if c == ' ' || c == '\t' || c == '\n' then f.finish true
      else if f.current.isSome then f.finish false
      else if f.afterBlank then { f with afterBlank := false }
      else { f with done := [] :: f.done }
    else { f with current := some ((c, m != .quoted) :: f.current.getD []), afterBlank := false }

end Cutting

/-- The fields of some pieces. -/
def fieldsOf (separators : List Char) (ps : List Piece) : List (List PatternChar) :=
  ((ps.foldl (Cutting.add separators) {}).finish false).done.reverse

/-- The characters at which values are split. -/
def State.separators (s : State) : List Char := ((s.get? "IFS").getD " \t\n").toList

/-- What stands between the arguments where they are one text. -/
def State.joint (s : State) : String :=
  match s.get? "IFS" with
  | none => " "
  | some ifs => String.ofList (ifs.toList.take 1)

/-- The letters of the options that are set, in their order. -/
def State.optionLetters (s : State) : String := String.ofList ("pubaCEVvxsnmiIfe".toList.filter s.has)

/-- The value of a parameter as one text, if it has one. -/
def State.value? (s : State) : Parameter → Option String
  | .variable name => s.get? name
  | .position 0 => some s.name
  | .position (n + 1) => s.arguments[n]?
  | .all | .each => some (s.joint.intercalate s.arguments)
  | .count => some (toString s.arguments.length)
  | .status => some (toString s.status)
  | .process => some (toString s.self)
  | .background => s.background.map toString
  | .options => some s.optionLetters

/-- The parameter as it is written. -/
def Parameter.text : Parameter → String
  | .variable name => name
  | .position n => toString n
  | .all => "*"
  | .each => "@"
  | .count => "#"
  | .status => "?"
  | .process => "$"
  | .background => "!"
  | .options => "-"

/-- The pieces of the value of a parameter. Where fields are wanted, arguments are fields of their own. -/
def State.valuePieces? (s : State) (p : Parameter) (quoted fields : Bool) : Option (List Piece) :=
  let mark := if quoted then Mark.quoted else .expanded
  let apart (start : List Piece) : List Piece :=
    (s.arguments.map fun a => start ++ piecesOf a mark).foldr (fun a rest => if rest.isEmpty then a else a ++ .gap :: rest) []
  match p, quoted, fields with
  | .each, true, true => some (apart [.quotes])
  | .each, false, true | .all, false, true => some (apart [])
  | _, _, _ => (s.value? p).map fun v => piecesOf v mark

/-- A message of the script about the command at work. -/
def State.message (s : State) (text : String) : String :=
  s.name ++ ": " ++ toString s.at_ ++ ": " ++ ((s.within.map (· ++ ": ")).getD "") ++ text ++ "\n"

/-- The script ends with a status, as soon as its descriptors are back in their places. -/
def State.leave (s : State) (status : Nat) : Program :=
  .script { s with
    frames := s.frames.filter fun
      | .restore _ => true
      | _ => false
    status }

/-- The script ends with a message. -/
def State.abort (s : State) (text : String) : Program := .complain (s.message text) (s.leave 2)

/-- Says how a child ended, if there is something to say, and goes on. -/
def reportEnd (e : ChildEnd) (next : Program) : Program := .complain ((e.message?.map (· ++ "\n")).getD "") next

/-- The script of a child: it runs one command, and no trap is taken over. -/
def State.child (s : State) (c : Command) (tested : Bool) : Program :=
  .script { s with
    traps := s.traps.filter (·.2 == ""), frames := [.run c tested], reusable := true, jobs := [] }

/-- The commands of a text that can be read. -/
def commandOf (s : State) (text : String) (line : Nat) : Command × List (Nat × Word) :=
  let source : Source := { rest := text.toList, line, aliases := s.aliases, nextDocument := s.documents.length }
  match (readList (20 * (text.length + 20)) false true none).run source with
  | .ok (c, after) => (c.getD .nothing, after.documents)
  | .error _ => (.nothing, [])

/-- Runs a script and goes on with what it wrote, but for the ends of lines at the end. -/
def runForOutput (s : State) (script : String) (line : Nat) (next : State → String → Program) : Program :=
  let (c, documents) := commandOf s script line
  .pipe fun r w =>
    .fork (.close r (.duplicate w 1 fun _ =>
        .close w (({ s with documents := documents ++ s.documents }).child c false))) fun pid =>
      .close w (.readAll r fun text _ =>
        .close r (.awaitChild { pid := some pid } fun
          | .ended _ e =>
            let cs := dropEndWhile (· == '\n') (text.toList.filter (· != '\x00'))
            reportEnd e (next { s with outputStatus := some e.status } (String.ofList cs))
          | _ => next s ""))

/-- Sets the variables that an expression assigns, oldest first. -/
def State.assignAll (s : State) (set : List (String × String)) : State := set.foldr (fun v s => s.assign v.1 v.2) s

mutual

/-- Expands the parts of a word. Unquoted text gets a mark; `fields` says whether fields are wanted. -/
def expandParts (fields : Bool) (mark : Mark) : List WordPart → State → (State → List Piece → Program) → Program
  | [], s, next => next s []
  | part :: rest, s, next =>
    expandPart fields mark part s fun s ps => expandParts fields mark rest s fun s qs => next s (ps ++ qs)

/-- Expands a part of a word. -/
def expandPart (fields : Bool) (mark : Mark) : WordPart → State → (State → List Piece → Program) → Program
  | .text t quoted, s, next => next s (if quoted then .quotes :: piecesOf t .quoted else piecesOf t mark)
  | .parameter p quoted, s, next =>
    match s.valuePieces? p quoted fields with
    | some ps => next s ps
    | none => if s.has 'u' then s.abort (p.text ++ ": parameter not set") else next s []
  | .length p quoted, s, next =>
    match s.value? p with
    | some v => next s (piecesOf (toString v.length) (if quoted then .quoted else .expanded))
    | none =>
      if s.has 'u' then s.abort (p.text ++ ": parameter not set")
      else next s (piecesOf "0" (if quoted then .quoted else .expanded))
  | .fallback p kind orEmpty word quoted, s, next =>
    let present := (s.value? p).any fun v => !orEmpty || !v.isEmpty
    let present := present && !((p = .each || p = .all) && s.arguments.isEmpty)
    let value := (s.valuePieces? p quoted fields).getD []
    match kind, present with
    | .alternative, false => next s []
    | .use, false | .alternative, true => expandParts fields (if quoted then .quoted else .expanded) word s next
    | .assign, false =>
      expandParts false .literal word s fun s ps =>
        match p with
        | .variable name =>
          if s.isConstant name then s.abort (name ++ ": is read only")
          else
            let s := s.assign name (textOf ps)
            next s (piecesOf (textOf ps) (if quoted then .quoted else .expanded))
        | p => s.abort (p.text ++ ": bad variable name")
    | .complain, false =>
      expandParts false .literal word s fun s ps =>
        s.abort (p.text ++ ": " ++
          if word.isEmpty then if orEmpty then "parameter not set or null" else "parameter not set" else textOf ps)
    | _, true => next s value
  | .trimmed p fromEnd longest pattern quoted, s, next =>
    match s.value? p with
    | none => if s.has 'u' then s.abort (p.text ++ ": parameter not set") else next s []
    | some v =>
      expandParts false .literal pattern s fun s ps =>
        let left := (Wildcard.ofChars (patternOf ps)).trim fromEnd longest v.toList
        next s (piecesOf (String.ofList left) (if quoted then .quoted else .expanded))
  | .faulty, s, _ => s.abort "Bad substitution"
  | .output script line quoted, s, next =>
    runForOutput s script line fun s text => next s (piecesOf text (if quoted then .quoted else .expanded))
  | .arithmetic word quoted, s, next =>
    expandParts false .literal word s fun s ps =>
      let text := textOf ps
      let get (name : String) : String := (s.value? (.variable name)).getD ""
      match (Arithmetic.ofText text).bind fun e => e.evaluate get [] with
      | .ok (n, set) =>
        match set.find? fun v => s.isConstant v.1 with
        | some v => s.abort (v.1 ++ ": is read only")
        | none => next (s.assignAll set) (piecesOf (toString n) (if quoted then .quoted else .expanded))
      | .error e => s.abort (e.message text)

end

/-- The home directory that a text after a tilde names. -/
def State.home? (s : State) (user : String) : Option String :=
  if user.isEmpty then s.get? "HOME" else if user == "root" then some "/root" else none

/-- A text at the start of a word with the tilde at its front expanded; `isAll` says that nothing follows it in the word. In an
assignment a name may end in a colon. -/
def tildeParts (s : State) (assignment isAll : Bool) (cs : List Char) : Word :=
  match cs with
  | '~' :: rest =>
    let user := rest.takeWhile fun c => c != '/' && !(assignment && c == ':')
    let after := rest.drop user.length
    if after.isEmpty && !isAll then [.text (String.ofList cs) false]
    else match s.home? (String.ofList user) with
      | some home => [.text home true, .text (String.ofList after) false]
      | none => [.text (String.ofList cs) false]
  | _ => [.text (String.ofList cs) false]

/-- A text of an assignment, cut after each colon. -/
def colonParts (cs : List Char) : List (List Char) :=
  cs.foldr (fun c acc => match acc with
    | [] => [[c]]
    | part :: rest => if c == ':' then [c] :: part :: rest else (c :: part) :: rest) [[]]

/-- A text of an assignment with the tildes after its colons expanded, and the one at its front if `first` is set. -/
def tildesInValue (s : State) (first isAll : Bool) (t : String) : Word :=
  let parts := colonParts t.toList
  (parts.mapIdx fun i cs =>
    if i = 0 && !first then [.text (String.ofList cs) false]
    else tildeParts s true (isAll && i + 1 = parts.length) cs).flatten

/-- A word with its tildes expanded: the one at its front, and in an assignment the ones after colons. -/
def expandTildes (s : State) (assignment : Bool) (w : Word) : Word :=
  if assignment then
    (w.mapIdx fun i part => match part with
      | .text t false => if t.toList.contains '~' then tildesInValue s (i = 0) (i + 1 = w.length) t else [part]
      | part => [part]).flatten
  else match w with
    | .text t false :: rest => tildeParts s false rest.isEmpty t.toList ++ rest
    | w => w

/-- Expands a word to a text that is not split. -/
def expandText (s : State) (assignment : Bool) (w : Word) (next : State → String → Program) : Program :=
  expandParts false .literal (expandTildes s assignment w) s fun s ps => next s (textOf ps)

/-- Expands a word to a pattern. -/
def expandPattern (s : State) (w : Word) (next : State → Wildcard → Program) : Program :=
  expandParts false .literal (expandTildes s false w) s fun s ps => next s (Wildcard.ofChars (patternOf ps))

/-- Expands a word to fields. -/
def expandWord (s : State) (w : Word) (next : State → List String → Program) : Program :=
  expandParts true .literal (expandTildes s false w) s fun s ps =>
    let fields := fieldsOf s.separators ps
    let plain := fields.map fun f => String.ofList (f.map (·.1))
    if s.has 'f' || !fields.any Wildcard.isNeeded then next s plain
    else .consult fun fs cwd => next s (fields.flatMap (expandPaths fs cwd))

/-- Expands several words to fields. -/
def expandWords : List Word → State → (State → List String → Program) → Program
  | [], s, next => next s []
  | w :: ws, s, next => expandWord s w fun s fields => expandWords ws s fun s more => next s (fields ++ more)

/-- Expands several words to fields, each word that assigns to one text. -/
def expandDeclarations : List Word → State → (State → List String → Program) → Program
  | [], s, next => next s []
  | w :: ws, s, next =>
    let more (s : State) (fields : List String) : Program :=
      expandDeclarations ws s fun s rest => next s (fields ++ rest)
    if (assignmentOf? w).isSome then expandText s true w fun s t => more s [t] else expandWord s w more

/-- Expands assignments and makes each of them before the next one is expanded. A variable that must not be changed ends the
script. -/
def expandAssignments (assign : State → String → String → State) : List (String × Word) → State →
    (State → List (String × String) → Program) → Program
  | [], s, next => next s []
  | (name, w) :: rest, s, next =>
    expandText s true w fun s value =>
      if s.isConstant name then s.abort (name ++ ": is read only")
      else expandAssignments assign rest (assign s name value) fun s more => next s ((name, value) :: more)

end JobShell.Machine.Script
