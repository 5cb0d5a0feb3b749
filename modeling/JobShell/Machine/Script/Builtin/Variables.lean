import JobShell.Machine.Script.Builtin.Basic

/-!
# Tasks on variables

The commands that set, mark, list and remove variables, arguments, options and aliases, and the ones that read into variables.
-/

namespace JobShell.Machine.Script.Task

/-- The line that lists a variable, after a word. -/
def listed (word : String) (b : Binding) : String :=
  (if word.isEmpty then "" else word ++ " ") ++ b.name ++
    ((b.value.map fun v => "=" ++ singleQuoted v).getD "") ++ "\n"

/-- The variables in the order of their names, as they are listed. -/
def listing (word : String) (bs : List Binding) : String :=
  String.join ((bs.mergeSort fun a b => a.name ≤ b.name).map (listed word))

/-- Marks variables, some of which are set as well, one after the other. -/
def markAll (t : Task) (mark : Binding → Binding) : List String → Program
  | [] => t.done
  | arg :: rest =>
    let cs := arg.toList
    let name := String.ofList (cs.takeWhile (· != '='))
    if !isName name then t.fault (name ++ ": bad variable name")
    else
      let s := t.state
      match cs.dropWhile (· != '=') with
      | [] =>
        let b := (s.binding? name).getD { name, value := none }
        markAll { t with state := s.bind (mark b) } mark rest
      | _ :: value =>
        if s.isConstant name then t.fault (name ++ ": is read only")
        else
          let s := s.assign name (String.ofList value)
          markAll { t with state := s.bind (mark ((s.binding? name).getD { name, value := none })) } mark rest

/-- Marks variables, or lists the ones that have the mark. -/
def markOrList (t : Task) (mark : Binding → Binding) (isMarked : Binding → Bool) : Program :=
  t.options "p" fun found operands =>
    if found.isEmpty && !operands.isEmpty then t.markAll mark operands
    else t.print (listing t.name (t.state.bindings.filter isMarked)) 0

/-- Removes variables or functions. -/
def unset (t : Task) : Program :=
  t.options "vf" fun found operands =>
    if (found.getLast?.map (·.1)) == some 'f' then
      { t.state with functions := t.state.functions.filter fun f => !operands.contains f.name }.proceed 0
    else go t operands
where
  /-- Removes one variable after the other. -/
  go (t : Task) : List String → Program
    | [] => t.done
    | name :: rest =>
      if !isName name then t.fault (name ++ ": bad variable name")
      else if t.state.isConstant name then t.fault (name ++ ": is read only")
      else go { t with state := t.state.remove name } rest

/-- The options with a name of their own. -/
def optionNames : List (String × Char) := [
  ("errexit", 'e'), ("noglob", 'f'), ("ignoreeof", 'I'), ("interactive", 'i'), ("monitor", 'm'), ("noexec", 'n'),
  ("stdin", 's'), ("xtrace", 'x'), ("verbose", 'v'), ("vi", 'V'), ("emacs", 'E'), ("noclobber", 'C'), ("allexport", 'a'),
  ("notify", 'b'), ("nounset", 'u'), ("privileged", 'p'), ("nolog", '\x01'), ("debug", '\x02')]

/-- The letter of an option. -/
def isOptionLetter (c : Char) : Bool := optionNames.any fun o => o.2 == c && ' ' ≤ c

/-- All options and whether they are set, as they are listed. -/
def optionList (s : State) : String :=
  "Current option settings\n" ++ String.join (optionNames.map fun o =>
    o.1 ++ "".pushn ' ' (16 - o.1.length) ++ (if s.has o.2 then "on" else "off") ++ "\n")

/-- All options as commands that set them. -/
def optionCommands (s : State) : String :=
  String.join (optionNames.map fun o => "set " ++ (if s.has o.2 then "-o " else "+o ") ++ o.1 ++ "\n")

/-- The script with its options set as some words say, what that prints, and the operands if there are any; or what is wrong. At the
start of a script, `-c` and `-l` count too. -/
def setOptions (atStart : Bool) (s : State) (printed : String) :
    List String → Except String (State × String × Option (List String))
  | [] => .ok (s, printed, none)
  | word :: rest =>
    match word.toList with
    | ['-'] => .ok (if atStart then s else (s.withOption 'x' false).withOption 'v' false, printed,
        if atStart || !rest.isEmpty then some rest else none)
    | ['-', '-'] => .ok (s, printed, some rest)
    | '-' :: letters => letterAfterLetter s printed true letters rest
    | '+' :: letters => letterAfterLetter s printed false letters rest
    | _ => .ok (s, printed, some (word :: rest))
termination_by words => (words.length, 0)
where
  /-- Sets the options of one word, and goes on with the next one. -/
  letterAfterLetter (s : State) (printed : String) (on : Bool) (letters : List Char) (rest : List String) :
      Except String (State × String × Option (List String)) :=
    match letters with
    | [] => setOptions atStart s printed rest
    | 'o' :: letters =>
      match rest with
      | [] =>
        -- Before a script has begun, each option counts as set.
        let listed := if atStart then { s with options := optionNames.map (·.2) } else s
        letterAfterLetter s (printed ++ if on then optionList listed else optionCommands listed) on letters []
      | name :: rest =>
        match optionNames.lookup name with
        | some c => letterAfterLetter (s.withOption c on) printed on letters rest
        | none => .error ("Illegal option -o " ++ name)
    | c :: letters =>
      if atStart && c == 'c' then letterAfterLetter (s.withOption 'c' true) printed on letters rest
      else if atStart && c == 'l' then letterAfterLetter s printed on letters rest
      else if isOptionLetter c then letterAfterLetter (s.withOption c on) printed on letters rest
      else .error ("Illegal option -" ++ String.singleton c)
  termination_by (rest.length, letters.length + 1)

/-- Sets options and arguments, or lists all variables. -/
def set (t : Task) : Program :=
  if t.arguments.isEmpty then t.print (listing "" (t.state.bindings.filter (·.value.isSome))) 0
  else match setOptions false t.state "" t.arguments with
    | .error text => t.fault text
    | .ok (s, printed, operands) =>
      let s := match operands with
        | some args => { s with arguments := args, index := 1, place := 0 }
        | none => s
      { t with state := s }.print printed 0

/-- Drops arguments. -/
def shift (t : Task) : Program :=
  match t.arguments.head? with
  | none => go 1
  | some word => match naturalOf? word with
    | some n => go n
    | none => t.fault ("Illegal number: " ++ word)
where
  /-- Drops so many arguments. -/
  go (n : Nat) : Program :=
    let s := t.state
    if s.arguments.length < n then t.fault "can't shift that many"
    else { s with arguments := s.arguments.drop n, index := 1, place := 0 }.proceed 0

/-- Makes variables a function's own, until it ends. -/
def makeLocal (t : Task) : Program :=
  match t.state.locals with
  | [] => t.fault "not in a function"
  | own :: outer => go t.state own outer t.arguments
where
  /-- Makes one variable after the other local. -/
  go (s : State) (own : List (String × Option Binding)) (outer : List (List (String × Option Binding))) :
      List String → Program
    | [] => { s with locals := own :: outer }.proceed 0
    | arg :: rest =>
      let cs := arg.toList
      let name := String.ofList (cs.takeWhile (· != '='))
      if name == "-" then
        go s (("-", some { name, value := some (String.ofList s.options) }) :: own) outer rest
      else if !isName name then t.fault (name ++ ": bad variable name")
      else
        let own := (name, s.binding? name) :: own
        match cs.dropWhile (· != '=') with
        | [] =>
          let s := if (s.binding? name).isSome then s else s.bind { name, value := none }
          go s own outer rest
        | _ :: value =>
          if s.isConstant name then t.fault (name ++ ": is read only")
          else go (s.assign name (String.ofList value)) own outer rest

/-- Variables as they were before. -/
def restored (s : State) (saved : List (String × Option Binding)) : State :=
  saved.foldl (fun s v => match v with
    | ("-", some b) => { s with options := (b.value.getD "").toList }
    | (name, some b) => (if name == "PATH" then { s with found := [] } else s).bind b
    | (name, none) => s.remove name) s

/-! ## Options of the arguments -/

/-- Takes the next option of the arguments. -/
def takeOption (t : Task) : Program :=
  match t.arguments with
  | letters :: name :: own =>
    let s := t.state
    let args := if own.isEmpty then s.arguments else own
    let index := if own.isEmpty && args.length + 1 < s.index then 1 else s.index
    let place := if own.isEmpty && args.length + 1 < s.index then 0 else s.place
    let current := if 1 < index && 0 < place then ((args[index - 2]?).map fun a => a.toList.drop place).getD [] else []
    let finish (s : State) (index place : Nat) (c : Char) (status : Nat) : Program :=
      if !isName name then t.fault (name ++ ": bad variable name")
      else
        let s := (s.assign "OPTIND" (toString index)).assign name (String.singleton c)
        { s with index, place }.proceed status
    let go (index : Nat) : List Char → Program
      | [] => finish s index 0 '?' 1
      | c :: cs =>
        -- How far the word has been read, if anything is left of it.
        let place := if cs.isEmpty then 0 else (((args[index - 2]?).getD "").length - cs.length)
        match letters.toList.dropWhile (· != c) with
        | [] =>
          if letters.startsWith ":" then finish (s.assign "OPTARG" (String.singleton c)) index place '?' 0
          else .complain ("Illegal option -" ++ String.singleton c ++ "\n") (finish (s.remove "OPTARG") index place '?' 0)
        | _ :: ':' :: _ =>
          if !cs.isEmpty then finish (s.assign "OPTARG" (String.ofList cs)) index 0 c 0
          else match args[index - 1]? with
            | some value => finish (s.assign "OPTARG" value) (index + 1) 0 c 0
            | none =>
              if letters.startsWith ":" then finish (s.assign "OPTARG" (String.singleton c)) index 0 ':' 0
              else .complain ("No arg for -" ++ String.singleton c ++ " option\n") (finish (s.remove "OPTARG") index 0 '?' 0)
        | _ => finish (s.assign "OPTARG" "") index place c 0
    if !current.isEmpty then go index current
    else match ((args[index - 1]?).getD "").toList with
      | ['-', '-'] => go (index + 1) []
      | '-' :: c :: cs => go (index + 1) (c :: cs)
      | _ => go index []
  | _ => t.fault "Usage: getopts optstring var [arg...]"

/-! ## Reading a line -/

/-- An octet of a line, and whether a backslash stood before it. -/
abbrev LineChar := Char × Bool

/-- Cuts a line into as many fields as there are names. Blanks among the separators part fields and are dropped at both ends; one
other separator parts two fields. The last name takes all that is left, but not a separator at its end that nothing follows. -/
def shareOut (separators : List Char) : List String → List LineChar → List (String × String)
  | [], _ => []
  | name :: names, cs =>
    let isBlank (c : LineChar) : Bool := !c.2 && separators.contains c.1 && (c.1 == ' ' || c.1 == '\t' || c.1 == '\n')
    let parts (c : LineChar) : Bool := !c.2 && separators.contains c.1
    let text (l : List LineChar) : String := String.ofList (l.map (·.1))
    let cs := cs.dropWhile isBlank
    let field := cs.takeWhile fun c => !parts c
    let rest := (cs.drop field.length).dropWhile isBlank
    let rest := match rest with
      | c :: more => if parts c then more.dropWhile isBlank else rest
      | [] => []
    if names.isEmpty then
      let trimmed := (cs.reverse.dropWhile isBlank).reverse
      [(name, text (if rest.isEmpty then field else trimmed))]
    else (name, text field) :: shareOut separators names rest

/-- Reads a line octet by octet; a backslash takes the meaning away from the octet after it, unless `raw` is set. -/
def readChars (raw : Bool) (next : List LineChar → Bool → Program) : (steps : Nat) → (escaped : Bool) → List LineChar → Program
  | 0, _, held => next held.reverse false
  | steps + 1, escaped, held =>
    .read 0 1 fun
      | .error _ => next held.reverse false
      | .ok text =>
        match text.toList with
        | [] => next held.reverse false
        | c :: _ =>
          if c == '\x00' then readChars raw next steps escaped held
          else if escaped then readChars raw next steps false (if c == '\n' then held else (c, true) :: held)
          else if c == '\\' && !raw then readChars raw next steps true held
          else if c == '\n' then next held.reverse true
          else readChars raw next steps false ((c, false) :: held)

/-- Reads a line into variables. -/
def read (t : Task) : Program :=
  t.options "p:r" fun found names =>
    if names.isEmpty then t.fault "arg count"
    else .inspect fun channel =>
      let prompt := if channel 0 == some (.device .terminal) then (found.lookup 'p').getD "" else ""
      .complain prompt (readChars (found.any (·.1 == 'r')) (fun cs closed =>
        setAll t.state (shareOut t.state.separators names cs) (if closed then 0 else 1)) Program.endless false [])
where
  /-- Sets the variables. -/
  setAll (s : State) (fields : List (String × String)) (status : Nat) : Program :=
    match fields with
    | [] => s.proceed status
    | (name, value) :: rest =>
      if !isName name then t.fault (name ++ ": bad variable name")
      else if s.isConstant name then t.fault (name ++ ": is read only")
      else setAll (s.assign name value) rest status

/-! ## Aliases -/

/-- Sets and lists aliases. -/
def setAliases (t : Task) : Program :=
  let line (a : String × String) : String := a.1 ++ "=" ++ singleQuoted a.2 ++ "\n"
  if t.arguments.isEmpty then
    t.print (String.join ((List.range 39).flatMap fun n =>
      (t.state.aliases.filter fun a => State.weight a.1 == n).map line)) 0
  else go line t.state t.arguments "" "" 0
where
  /-- Takes one argument after the other, and collects what is to be printed and complained about. -/
  go (line : String × String → String) (s : State) : List String → (out err : String) → (status : Nat) → Program
    | [], out, err, status => .complain err ({ t with state := s }.print out status)
    | arg :: rest, out, err, status =>
      let cs := arg.toList
      let name := String.ofList (cs.takeWhile (· != '='))
      match if name.isEmpty then [] else cs.dropWhile (· != '=') with
      | [] =>
        match s.aliases.lookup arg with
        | some value => go line s rest (out ++ line (arg, value)) err status
        | none => go line s rest out (err ++ "alias: " ++ arg ++ " not found\n") 1
      | _ :: value =>
        let kept := s.aliases.filter (·.1 != name)
        go line { s with aliases := kept ++ [(name, String.ofList value)] } rest out err status

/-- Removes aliases. -/
def unsetAliases (t : Task) : Program :=
  t.options "a" fun found names =>
    if !found.isEmpty then { t.state with aliases := [] }.proceed 0
    else
      let missing := names.filter fun n => (t.state.aliases.lookup n).isNone
      .complain (String.join (missing.map fun n => "unalias: " ++ n ++ " not found\n"))
        ({ t.state with aliases := t.state.aliases.filter fun a => !names.contains a.1 }.proceed
          (if missing.isEmpty then 0 else 1))

end JobShell.Machine.Script.Task
