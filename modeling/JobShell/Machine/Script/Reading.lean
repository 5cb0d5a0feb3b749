import JobShell.Machine.Script.Token

/-!
# Reading a script

A script is read one complete command at a time: all that stands on a line, with the lines it needs to be complete. What
follows is not looked at before the command has run, so that a fault further on does not keep it from running. The readers
take a bound on how deep they go, which the number of characters gives.
-/

namespace JobShell.Machine.Script

open Reader

/-- The words that have a meaning of their own where a command begins. -/
def reservedWords : List String :=
  ["!", "case", "do", "done", "elif", "else", "esac", "fi", "for", "if", "in", "then", "until", "while", "\x7b", "\x7d"]

/-- The words before which a list of commands ends. -/
def closingWords : List String := ["do", "done", "elif", "else", "esac", "fi", "then", "\x7d"]

/-- The commands that are special: their faults end the script. -/
def specialNames : List String :=
  [".", ":", "break", "continue", "eval", "exec", "exit", "export", "readonly", "return", "set", "shift", "times", "trap", "unset"]

/-- The reserved word that a token is. -/
def Token.reserved? : Token → Option String
  | .word w => w.plain?.filter reservedWords.contains
  | _ => none

/-- A token as a fault names it. -/
def Token.name (t : Token) : String :=
  match t with
  | .word _ => (t.reserved?.map fun s => "\"" ++ s ++ "\"").getD "word"
  | .operator s => "\"" ++ s ++ "\""
  | .redirection .. => "redirection"
  | .endOfLine => "newline"
  | .endOfText => "end of file"

/-- The token is this operator. -/
def Token.isOperator (t : Token) (s : String) : Bool :=
  match t with
  | .operator o => o == s
  | _ => false

/-- A list of commands ends before the token. -/
def Token.closes (t : Token) : Bool :=
  t.isOperator ")" || t.isOperator ";;" || t.reserved?.any closingWords.contains

/-- A token that cannot stand where it does. -/
def unexpected (t : Token) : Reader α := fault ("Syntax error: " ++ t.name ++ " unexpected")

/-- A token that stands in the place of another one. -/
def unexpectedFor (t : Token) (expected : String) : Reader α :=
  fault ("Syntax error: " ++ t.name ++ " unexpected (expecting \"" ++ expected ++ "\")")

/-- Puts a token back. -/
def putBack (t : Token) : Reader Unit := modify fun s => { s with held := some t }

/-- The text of a word without its quotes, as it ends a document. -/
def Word.literal (w : Word) : String :=
  String.join (w.map fun
    | .text s _ => s
    | .parameter (.variable name) _ => "$" ++ name
    | _ => "")

/-- No part of the word is quoted. -/
def Word.isBare (w : Word) : Bool :=
  w.all fun
    | .text _ quoted => !quoted
    | _ => true

/-- The lines of a document up to the one that ends it, and the rest of the characters. A line after a backslash at the end of
another does not end a document that is not literal. At most `fuel` lines are read. -/
def documentLines (a : Announcement) : (fuel : Nat) → (joined : Bool) → List Char → List (List Char) × Option (List Char)
  | 0, _, cs => ([], some cs)
  | _, _, [] => ([], none)
  | fuel + 1, joined, cs =>
    let (line, rest) := (cs.takeWhile (· != '\n'), cs.dropWhile (· != '\n'))
    let line := if a.dropsTabs && !joined then line.dropWhile (· == '\t') else line
    if !joined && String.ofList line == a.ending then ([], some (rest.drop 1))
    else
      let joins := !a.literal && (line.reverse.takeWhile (· == '\\')).length % 2 == 1
      let (lines, left) := documentLines a fuel joins (rest.drop 1)
      ((line ++ rest.take 1) :: lines, left)

mutual

/-- Reads on in a word, between quotes or not, up to its ending; `depth` brackets are open in an arithmetic expression. -/
def readParts : (fuel : Nat) → (quoted : Bool) → Ending → (depth : Nat) → Word → Reader Word
  | 0, _, _, _, w => return w
  | fuel + 1, quoted, ending, depth, w => do
    let run ← takeWhile fun c => !isActive quoted ending c
    let w := if run.isEmpty then w else w.addText (String.ofList run) quoted
    match ← peek with
    | none =>
      match ending with
      | .word | .document => return w
      | .brace => fault (if quoted then "Syntax error: Unterminated quoted string" else "Syntax error: Missing '\x7d'")
      | .quote => fault "Syntax error: Unterminated quoted string"
      | .brackets => fault "Syntax error: Missing '))'"
    | some '\\' =>
      skip
      match ← next with
      | none => readParts fuel quoted ending depth (w.addText "\\" true)
      | some '\n' => readParts fuel quoted ending depth w
      | some d =>
        let kept := if quoted && !isEscapable ending d then "\\" else ""
        readParts fuel quoted ending depth (w.addText (kept ++ String.singleton d) true)
    | some '\'' =>
      skip
      let inside ← takeWhile (· != '\'')
      match ← peek with
      | none => fault "Syntax error: Unterminated quoted string"
      | some _ =>
        skip
        readParts fuel quoted ending depth (w.addText (String.ofList inside) true)
    | some '"' =>
      skip
      if ending = .quote then return w
      let inside ← readParts fuel true .quote 0 []
      -- Quotes leave an empty field behind, but not around the arguments alone.
      let mark : Word := match inside with
        | [.parameter .each _] => []
        | _ => [.text "" true]
      readParts fuel quoted ending depth (w ++ mark ++ inside)
    | some '$' =>
      skip
      let parts ← readDollar fuel quoted
      readParts fuel quoted ending depth (match parts with
        | [.text s q] => w.addText s q
        | parts => w ++ parts)
    | some '\x60' =>
      skip
      let line := (← get).line
      let script ← readBackquoted fuel quoted []
      let _ ← checkScript fuel script
      readParts fuel quoted ending depth (w ++ [.output script line quoted])
    | some '}' =>
      skip
      return w
    | some c =>
      if ending = .word then return w
      skip
      if c == '(' then readParts fuel quoted ending (depth + 1) (w.addText "(" true)
      else if depth != 0 then readParts fuel quoted ending (depth - 1) (w.addText ")" true)
      else if ← accept ')' then return w
      else readParts fuel quoted ending 0 (w.addText ")" true)

/-- Reads what follows a dollar sign. -/
def readDollar : (fuel : Nat) → (quoted : Bool) → Reader Word
  | 0, _ => return []
  | fuel + 1, quoted => do
    match ← peekJoined with
    | some '(' =>
      skip
      if ← accept '(' then
        let w ← readParts fuel true .brackets 0 []
        return [.arithmetic w quoted]
      else
        let before ← get
        set { before with announced := [], held := none }
        let _ ← readList fuel false true none
        let t ← readToken fuel
        if !t.isOperator ")" then unexpectedFor t ")"
        modify fun s => { s with announced := before.announced, held := none }
        let length := before.rest.length - (← get).rest.length - 1
        return [.output (String.ofList (before.rest.take length)) before.line quoted]
    | some '{' =>
      skip
      readBraced fuel quoted
    | some c =>
      if isNameStart c then return [.parameter (.variable (String.ofList (← takeWhile isNameChar))) quoted]
      else if c.isDigit then
        skip
        return [.parameter (.position (c.toNat - '0'.toNat)) quoted]
      else match specialParameter? c with
        | some p =>
          skip
          return [.parameter p quoted]
        | none => return [.text "$" quoted]
    | none => return [.text "$" quoted]

/-- Reads the parameter between braces, after the first brace: a name, digits or a special character. -/
def readBracedName : (fuel : Nat) → Reader (Option Parameter)
  | 0 => return none
  | _ + 1 => do
    match ← peekJoined with
    | some c =>
      if isNameStart c then return some (.variable (String.ofList (← takeWhile isNameChar)))
      else if c.isDigit then
        let digits ← takeWhile Char.isDigit
        return some (.position ((Numeral.digits? digits).getD 0))
      else
        let p := specialParameter? c
        if p.isSome then skip
        return p
    | none => return none

/-- Reads a parameter between braces, after the first one. -/
def readBraced : (fuel : Nat) → (quoted : Bool) → Reader Word
  | 0, _ => return []
  | fuel + 1, quoted => do
    let spoiled : Reader Word := do
      let _ ← readParts fuel quoted .brace 0 []
      return [.faulty]
    let before ← get
    -- A number sign asks for the length of what follows it, unless it is the parameter itself.
    let length ← do
      if (← peekJoined) == some '#' then
        skip
        let p ← readBracedName fuel
        if p.isSome && (← peekJoined) == some '}' then
          skip
          pure p
        else
          let named := match p with
            | some (.variable _) | some (.position _) => true
            | _ => false
          if named then return ← spoiled
          set before
          pure none
      else pure none
    match length with
    | some p => return [.length p quoted]
    | none =>
      match ← readBracedName fuel with
      | none => spoiled
      | some p =>
        match ← peekJoined with
        | some '}' =>
          skip
          return [.parameter p quoted]
        | some '%' => readTrim fuel p '%' quoted
        | some '#' => readTrim fuel p '#' quoted
        | _ =>
          let orEmpty ← accept ':'
          let kind := match ← peekJoined with
            | some '-' => some Fallback.use
            | some '=' => some .assign
            | some '?' => some .complain
            | some '+' => some .alternative
            | _ => none
          match kind with
          | none =>
            if orEmpty then let _ ← accept '\x7d'
            spoiled
          | some kind =>
            skip
            let word ← readParts fuel quoted .brace 0 []
            return [.fallback p kind orEmpty word quoted]

/-- Reads the pattern that is to be taken off an end of a value; the sign before it is written twice for the longest match. -/
def readTrim : (fuel : Nat) → Parameter → (sign : Char) → (quoted : Bool) → Reader Word
  | 0, _, _, _ => return []
  | fuel + 1, p, sign, quoted => do
    skip
    let longest ← accept sign
    let pattern ← readParts fuel false .brace 0 []
    return [.trimmed p (sign == '%') longest pattern quoted]

/-- Reads a script between backquotes, after the first one, with the backslashes taken away that belong to the quotes. -/
def readBackquoted : (fuel : Nat) → (quoted : Bool) → List Char → Reader String
  | 0, _, cs => return String.ofList cs.reverse
  | fuel + 1, quoted, cs => do
    match ← next with
    | none => fault "Syntax error: EOF in backquote substitution"
    | some '\x60' => return String.ofList cs.reverse
    | some '\\' =>
      match ← next with
      | none => fault "Syntax error: EOF in backquote substitution"
      | some '\n' => readBackquoted fuel quoted cs
      | some d =>
        if d == '\\' || d == '\x60' || d == '$' || (quoted && d == '"') then readBackquoted fuel quoted (d :: cs)
        else readBackquoted fuel quoted (d :: '\\' :: cs)
    | some c => readBackquoted fuel quoted (c :: cs)

/-- Reads a script within the script, only to see whether it can be read. -/
def checkScript : (fuel : Nat) → String → Reader Unit
  | 0, _ => return ()
  | fuel + 1, script => do
    let outer ← get
    set { outer with rest := script.toList, isOpen := false, announced := [], held := none }
    let _ ← readList fuel false true none
    let t ← readToken fuel
    match t with
    | .endOfText => set outer
    | t => unexpected t

/-- Goes past blanks and comments. -/
def skipBlanks : (fuel : Nat) → Reader Unit
  | 0 => return ()
  | fuel + 1 => do
    let _ ← takeWhile fun c => c == ' ' || c == '\t'
    let s ← get
    match s.rest with
    | '\\' :: '\n' :: _ =>
      skip
      skip
      skipBlanks fuel
    | '#' :: _ =>
      let _ ← takeWhile (· != '\n')
    | _ => return ()

/-- Takes the next token. -/
def readToken : (fuel : Nat) → Reader Token
  | 0 => return .endOfText
  | fuel + 1 => do
    let s ← get
    if let some t := s.held then
      set { s with held := none }
      return t
    if s.isOpen && !s.rest.contains '\n' then throw .incomplete
    skipBlanks fuel
    match ← peek with
    | none => return .endOfText
    | some '\n' =>
      skip
      return .endOfLine
    | some _ =>
      let s ← get
      let at_ (l : List String) : Option String := l.find? fun o => o.toList.isPrefixOf s.rest
      match at_ operators, at_ redirectionOperators with
      | some o, _ =>
        set { s with rest := s.rest.drop o.length }
        return .operator o
      | none, some o =>
        set { s with rest := s.rest.drop o.length }
        return .redirection none o
      | none, none =>
        let w ← readParts fuel false .word 0 []
        let s ← get
        let digit := w.plain?.bind fun t => match t.toList with
          | [d] => if d.isDigit then some (d.toNat - '0'.toNat) else none
          | _ => none
        match digit, redirectionOperators.find? fun o => o.toList.isPrefixOf s.rest with
        | some d, some o =>
          set { s with rest := s.rest.drop o.length }
          return .redirection (some d) o
        | _, _ => return .word w

/-- Reads the documents that were announced. -/
def readDocuments : (fuel : Nat) → Reader Unit
  | 0 => return ()
  | fuel + 1 => do
    let s ← get
    match s.announced with
    | [] => return ()
    | a :: more =>
      let (lines, left) := documentLines a s.rest.length false s.rest
      if left.isNone && s.isOpen then throw .incomplete
      let rest := left.getD []
      let read := s.rest.take (s.rest.length - rest.length)
      let after := { s with announced := more, rest, line := s.line + read.count '\n' }
      let body ← if a.literal then pure [.text (String.join (lines.map String.ofList)) true]
        else do
          set { s with rest := lines.flatten, isOpen := false, held := none, announced := [] }
          readParts fuel true .document 0 []
      set { after with documents := (a.number, body) :: s.documents }
      readDocuments fuel

/-- Takes the next token where a command may begin: an alias gives way to its value, and the ends of lines may be passed
over. -/
def readCommandToken : (fuel : Nat) → (passesLines : Bool) → Reader Token
  | 0, _ => return .endOfText
  | fuel + 1, passesLines => do
    let t ← readToken fuel
    match t with
    | .endOfLine =>
      if passesLines then
        readDocuments fuel
        readCommandToken fuel true
      else return t
    | .word w =>
      let s ← get
      let alias_ := (w.plain?.filter fun n => t.reserved?.isNone && !s.aliased.any fun a => a.1 == n && a.2 ≤ s.rest.length).bind
        fun n => (s.aliases.lookup n).map fun v => (n, v)
      match alias_ with
      | none => return t
      | some (n, v) =>
        set { s with rest := v.toList ++ s.rest, aliased := (n, s.rest.length) :: s.aliased }
        readCommandToken fuel passesLines
    | t => return t

/-- Takes a token where a reserved word counts, which must be this one. -/
def expectReserved : (fuel : Nat) → String → Reader Unit
  | 0, _ => return ()
  | fuel + 1, s => do
    let t ← readCommandToken fuel false
    if t.reserved? != some s then unexpectedFor t s

/-- Takes commands, on one line or up to what closes them. `mayClose` says that they may be closed at once. -/
def readList : (fuel : Nat) → (oneLine : Bool) → (mayClose : Bool) → Option Command → Reader (Option Command)
  | 0, _, _, acc => return acc
  | fuel + 1, oneLine, mayClose, acc => do
    match ← readCommandToken fuel (!oneLine) with
    | .endOfLine =>
      readDocuments fuel
      return acc
    | .endOfText =>
      readDocuments fuel
      putBack .endOfText
      return acc
    | t =>
      putBack t
      if mayClose && t.closes then return acc
      let c ← readAndOr fuel
      let t ← readToken fuel
      let c := if t.isOperator "&" then .background c else c
      let acc := some (match acc with
        | some before => .sequence before c
        | none => c)
      match t with
      | .endOfText =>
        readDocuments fuel
        putBack t
        return acc
      | .endOfLine =>
        putBack t
        readList fuel oneLine (!oneLine) acc
      | t =>
        if t.isOperator "&" || t.isOperator ";" then readList fuel oneLine (!oneLine) acc
        else if oneLine then unexpected t
        else
          putBack t
          return acc

/-- Takes commands up to what closes them, of which there must be one. -/
def readBody : (fuel : Nat) → Reader Command
  | 0 => return .nothing
  | fuel + 1 => do return (← readList fuel false false none).getD .nothing

/-- Takes pipelines joined by `&&` and `||`. -/
def readAndOr : (fuel : Nat) → Reader Command
  | 0 => return .nothing
  | fuel + 1 => do
    let c ← readPipeline fuel false
    readAndOrRest fuel c

/-- Takes the pipelines joined to one. -/
def readAndOrRest : (fuel : Nat) → Command → Reader Command
  | 0, c => return c
  | fuel + 1, c => do
    let t ← readToken fuel
    if t.isOperator "&&" then readAndOrRest fuel (.both c (← readPipeline fuel true))
    else if t.isOperator "||" then readAndOrRest fuel (.either c (← readPipeline fuel true))
    else
      putBack t
      return c

/-- Takes a pipeline, which may be negated. -/
def readPipeline : (fuel : Nat) → (passesLines : Bool) → Reader Command
  | 0, _ => return .nothing
  | fuel + 1, passesLines => do
    let t ← readCommandToken fuel passesLines
    let negated := t.reserved? == some "!"
    if !negated then putBack t
    let stages ← readStages fuel false
    let c := match stages with
      | [c] => c
      | stages => .pipeline stages
    return if negated then .negation c else c

/-- Takes the stages of a pipeline. -/
def readStages : (fuel : Nat) → (passesLines : Bool) → Reader (List Command)
  | 0, _ => return []
  | fuel + 1, passesLines => do
    let c ← readCommand fuel passesLines
    let t ← readToken fuel
    if t.isOperator "|" then return c :: (← readStages fuel true)
    else
      putBack t
      return [c]

/-- Takes a command. -/
def readCommand : (fuel : Nat) → (passesLines : Bool) → Reader Command
  | 0, _ => return .nothing
  | fuel + 1, passesLines => do
    let t ← readCommandToken fuel passesLines
    let line := (← get).line
    match t.reserved? with
    | some "if" => readRedirected fuel line (← readChoice fuel)
    | some "while" => readRedirected fuel line (← readLoop fuel false)
    | some "until" => readRedirected fuel line (← readLoop fuel true)
    | some "for" => readRedirected fuel line (← readEach fuel line)
    | some "case" => readRedirected fuel line (← readSelect fuel line)
    | some "\x7b" =>
      let c ← readBody fuel
      expectReserved fuel "\x7d"
      readRedirected fuel line c
    | some _ => unexpected t
    | none =>
      match t with
      | .operator "(" =>
        let c ← readBody fuel
        let t ← readToken fuel
        if !t.isOperator ")" then unexpectedFor t ")"
        return .subshell line c (← readRedirections fuel)
      | .word _ | .redirection .. =>
        putBack t
        readSimple fuel { line := (← get).line }
      | t => unexpected t

/-- Takes the redirections that follow a compound command. -/
def readRedirected : (fuel : Nat) → (line : Nat) → Command → Reader Command
  | 0, _, c => return c
  | fuel + 1, line, c => do
    match ← readRedirections fuel with
    | [] => return c
    | rs => return .redirected line c rs

/-- Takes all redirections that stand here. -/
def readRedirections : (fuel : Nat) → Reader (List Redirection)
  | 0 => return []
  | fuel + 1 => do
    match ← readCommandToken fuel false with
    | .redirection target o =>
      let r ← readRedirection fuel target o
      return r :: (← readRedirections fuel)
    | t =>
      putBack t
      return []

/-- Takes what a redirection leads to. -/
def readRedirection : (fuel : Nat) → Option Descriptor → String → Reader Redirection
  | 0, _, _ => return { target := 0, kind := .input, word := [] }
  | fuel + 1, target, o => do
    match ← readToken fuel with
    | .word w =>
      let standard (d : Descriptor) : Descriptor := target.getD d
      match o with
      | "<" => return { target := standard 0, kind := .input, word := w }
      | "<>" => return { target := standard 0, kind := .update, word := w }
      | "<&" => return { target := standard 0, kind := .copy, word := w }
      | ">&" => return { target := standard 1, kind := .copy, word := w }
      | ">>" => return { target := standard 1, kind := .append, word := w }
      | ">|" => return { target := standard 1, kind := .clobber, word := w }
      | ">" => return { target := standard 1, kind := .output, word := w }
      | _ =>
        let s ← get
        let a : Announcement :=
          { number := s.nextDocument, ending := w.literal, literal := !w.isBare, dropsTabs := o == "<<-" }
        set { s with announced := s.announced ++ [a], nextDocument := s.nextDocument + 1 }
        return { target := standard 0, kind := .document a.number, word := [] }
    | t => unexpected t

/-- Takes the rest of a simple command, or the function that it turns out to be. -/
def readSimple : (fuel : Nat) → SimpleCommand → Reader Command
  | 0, c => return .simple c
  | fuel + 1, c => do
    let t ← if c.words.isEmpty then readCommandToken fuel false else readToken fuel
    match t with
    | .word w =>
      match if c.words.isEmpty then assignmentOf? w else none with
      | some a => readSimple fuel { c with assignments := c.assignments ++ [a] }
      | none => readSimple fuel { c with words := c.words ++ [w] }
    | .redirection target o =>
      let r ← readRedirection fuel target o
      readSimple fuel { c with redirections := c.redirections ++ [r] }
    | t =>
      match c.words with
      | [w] =>
        if t.isOperator "(" && c.assignments.isEmpty && c.redirections.isEmpty then
          let t ← readToken fuel
          if !t.isOperator ")" then unexpectedFor t ")"
          match w.plain?.filter fun n => isName n && !specialNames.contains n with
          | none => fault "Syntax error: Bad function name"
          | some functionName =>
            let line := (← get).line
            return .define functionName line (← readCommand fuel true)
        else
          putBack t
          return .simple c
      | _ =>
        putBack t
        return .simple c

/-- Takes a loop after its first word. -/
def readLoop : (fuel : Nat) → (until_ : Bool) → Reader Command
  | 0, _ => return .nothing
  | fuel + 1, until_ => do
    let condition ← readBody fuel
    expectReserved fuel "do"
    let body ← readBody fuel
    expectReserved fuel "done"
    return .loop until_ condition body

/-- Takes a choice after its first word. -/
def readChoice : (fuel : Nat) → Reader Command
  | 0 => return .nothing
  | fuel + 1 => do
    let condition ← readBody fuel
    expectReserved fuel "then"
    let yes ← readBody fuel
    let t ← readCommandToken fuel false
    match t.reserved? with
    | some "elif" => return .choice condition yes (← readChoice fuel)
    | some "else" =>
      let no ← readBody fuel
      expectReserved fuel "fi"
      return .choice condition yes no
    | _ =>
      putBack t
      expectReserved fuel "fi"
      return .choice condition yes .nothing

/-- Takes a loop through words after its first word. -/
def readEach : (fuel : Nat) → (line : Nat) → Reader Command
  | 0, _ => return .nothing
  | fuel + 1, line => do
    let variableName := match ← readToken fuel with
      | .word w => w.plain?.filter isName
      | _ => none
    match variableName with
    | none => fault "Syntax error: Bad for loop variable"
    | some n =>
      let t ← readCommandToken fuel true
      let words ←
        if t.reserved? == some "in" then readWords fuel
        else
          if !t.isOperator ";" then putBack t
          pure [[.parameter .each true]]
      let t ← readCommandToken fuel true
      if t.reserved? != some "do" then unexpectedFor t "do"
      let body ← readBody fuel
      expectReserved fuel "done"
      return .each line n words body

/-- Takes the words that a loop goes through. -/
def readWords : (fuel : Nat) → Reader (List Word)
  | 0 => return []
  | fuel + 1 => do
    match ← readToken fuel with
    | .word w => return w :: (← readWords fuel)
    | .endOfLine =>
      readDocuments fuel
      return []
    | t => if t.isOperator ";" then return [] else unexpected t

/-- Takes a choice by patterns after its first word. -/
def readSelect : (fuel : Nat) → (line : Nat) → Reader Command
  | 0, _ => return .nothing
  | fuel + 1, line => do
    match ← readToken fuel with
    | .word w =>
      let t ← readCommandToken fuel true
      if t.reserved? != some "in" then unexpectedFor t "in"
      return .select line w (← readBranches fuel)
    | t => fault ("Syntax error: " ++ t.name ++ " unexpected (expecting word)")

/-- Takes the branches of a choice by patterns. -/
def readBranches : (fuel : Nat) → Reader (List (List Word × Command))
  | 0 => return []
  | fuel + 1 => do
    let t ← readPatternToken fuel
    if t.reserved? == some "esac" then return []
    let t ← if t.isOperator "(" then readToken fuel else pure t
    let patterns ← readPatterns fuel t
    let body := (← readList fuel false true none).getD .nothing
    let t ← readPatternToken fuel
    if t.reserved? == some "esac" then return [(patterns, body)]
    if !t.isOperator ";;" then unexpectedFor t ";;"
    return (patterns, body) :: (← readBranches fuel)

/-- Takes a token before which lines may end. -/
def readPatternToken : (fuel : Nat) → Reader Token
  | 0 => return .endOfText
  | fuel + 1 => do
    match ← readToken fuel with
    | .endOfLine =>
      readDocuments fuel
      readPatternToken fuel
    | t => return t

/-- Takes the patterns of a branch, of which the first token is read already. -/
def readPatterns : (fuel : Nat) → Token → Reader (List Word)
  | 0, _ => return []
  | fuel + 1, t => do
    let w := match t with
      | .word w => w
      | _ => []
    let t ← readToken fuel
    if t.isOperator "|" then return w :: (← readPatterns fuel (← readToken fuel))
    if !t.isOperator ")" then unexpectedFor t ")"
    return [w]

end

/-- The next complete command and what follows it: nothing at the end of the text, and no command on an empty line. Also says
whether the text ended with the command. -/
def nextCommand (s : Source) : Except Fault (Option (Option Command) × Source × Bool) := do
  let fuel := 20 * (s.rest.length + s.aliases.foldl (fun n a => n + a.2.length) 0 + 20)
  let (c, s) ← (readList fuel true false none).run { s with held := none, announced := [] }
  match c, s.held with
  | none, some .endOfText => .ok (none, s, true)
  | c, held =>
    let ended := match held with
      | some .endOfText => true
      | _ => false
    .ok (some c, { s with held := none }, ended)

end JobShell.Machine.Script
