import JobShell.Machine.Script.Expansion

/-!
# Redirections

What redirections lead to is expanded first; then they are made from left to right, and the first one that fails ends that.
What a redirected descriptor led to before is kept under a number from ten on where it has to be put back.
-/

namespace JobShell.Machine.Script

/-- What is wrong with a path, as scripts word it. -/
def openingFault (creates : Bool) : FileError → String
  | .notFound | .notDirectory => if creates then "Directory nonexistent" else "No such file"
  | e => e.description

/-- A redirection with what it leads to: a path, a descriptor, or the text of a document. -/
structure PlainRedirection where
  target : Descriptor
  kind : RedirectionKind
  text : String

/-- The descriptor that a text names, if it is a single digit. -/
def digitDescriptor? (text : String) : Option Descriptor :=
  match text.toList with
  | [d] => if d.isDigit then some (d.toNat - '0'.toNat) else none
  | _ => none

/-- Expands what redirections lead to, in their order. -/
def expandRedirections : List Redirection → State → (State → List PlainRedirection → Program) → Program
  | [], s, next => next s []
  | r :: rest, s, next =>
    let word := match r.kind with
      | .document n => (s.documents.lookup n).getD []
      | _ => r.word
    expandText s false word fun s text =>
      if r.kind = .copy && text != "-" && (digitDescriptor? text).isNone then s.abort "Syntax error: Bad fd number"
      else expandRedirections rest s fun s more => next s ({ target := r.target, kind := r.kind, text } :: more)

/-- How long a document may be that a script writes itself; a longer one is written by a child. -/
def documentLimit : Nat := 4096

/-- Makes a descriptor lead to a text. -/
def provide (target : Descriptor) (text : String) (next : Program) : Program :=
  .pipe fun r w =>
    let connected : Program := .close w (.duplicate r target fun _ => .close r next)
    if text.isEmpty then connected
    else if text.length ≤ documentLimit then .write w text fun _ => connected
    else .fork (.close r (.dispose ([Signal.int, .quit, .hup, .tstp].map Signal.number) .ignore
      (.dispose [Signal.pipe.number] .default (.write w text fun _ => .exit 0)))) fun _ => connected

/-- Makes redirections and goes on with `next`, or reports the first one that fails and goes on with `failed`. -/
def redirect (s : State) : List PlainRedirection → (next failed : Program) → Program
  | [], next, _ => next
  | r :: rest, next, failed =>
    let go := redirect s rest next failed
    let report (text : String) : Program := .complain (s.message text) failed
    let opened (mode : OpenMode) : Program :=
      .openFile (some r.target) r.text mode fun
        | .ok _ => go
        | .error e =>
          let creates := mode != .read
          report ((if creates then "cannot create " else "cannot open ") ++ r.text ++ ": " ++ openingFault creates e)
    match r.kind with
    | .input => opened .read
    | .output => opened (if s.has 'C' then .fresh else .write)
    | .clobber => opened .write
    | .append => opened .append
    | .update => opened .update
    | .document _ => provide r.target r.text go
    | .copy =>
      match digitDescriptor? r.text with
      | none => .close r.target go
      | some d =>
        if d = r.target then go
        else .duplicate d r.target fun
          | true => go
          | false => report (r.text ++ ": " ++ FileError.badDescriptor.description)

/-- Keeps descriptors: each place with the descriptor it is for. -/
def keep : List (Descriptor × Descriptor) → Program → Program
  | [], next => next
  | (place, target) :: rest, next => .duplicate target place fun _ => keep rest next

/-- The first of the numbers under which descriptors are kept. -/
def firstPlace : Descriptor := 10

/-- Keeps what the targets of redirections lead to, and goes on with the places. -/
def keepTargets (rs : List PlainRedirection) (next : List (Descriptor × Descriptor) → Program) : Program :=
  if rs.isEmpty then next []
  else .inspect fun channel =>
    let places := ((List.range 200).map (firstPlace + ·)).filter fun d => (channel d).isNone
    let saved := places.zip (rs.map (·.target)).eraseDups
    keep saved (next saved)

/-- Puts kept descriptors back; one that led nowhere is closed. -/
def putBackTargets : List (Descriptor × Descriptor) → Program → Program
  | [], next => next
  | (place, target) :: rest, next =>
    .duplicate place target fun
      | true => .close place (putBackTargets rest next)
      | false => .close target (putBackTargets rest next)

end JobShell.Machine.Script
