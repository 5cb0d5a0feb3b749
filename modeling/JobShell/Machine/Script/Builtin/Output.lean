import JobShell.Machine.Rights
import JobShell.Machine.Condition
import JobShell.Machine.Format
import JobShell.Machine.Script.Builtin.Basic

/-!
# Tasks that print and ask

The commands `echo` and `printf`, the conditions, and what a script can ask about its process.
-/

namespace JobShell.Machine.Script.Task

/-- Prints its arguments with their escapes replaced. -/
def echo (t : Task) : Program :=
  let (newline, words) := match t.arguments with
    | "-n" :: words => (false, words)
    | words => (true, words)
  let (cs, ended) := unescape .script (" ".intercalate words)
  t.print (String.ofList cs ++ if newline && !ended then "\n" else "") 0

/-- Prints after a format. Complaints come first, since what is printed is written at the end. -/
def printf (t : Task) : Program :=
  t.options "" fun _ operands =>
    match operands with
    | [] => t.fault "usage: printf format [arg ...]"
    | format :: args =>
      let f := formatWith .script format args
      let said := f.said.reverse
      let text := String.ofList ((said.filter fun p => !p.1).flatMap (·.2))
      let complaints := (said.filter fun p => p.1).map fun p => String.ofList p.2
      complaints.foldr t.warn (match f.fault with
        | some fault => .put text fun _ => t.fault fault
        | none => t.print text (if f.failed then 1 else 0))

/-- Checks a condition; under the name `[` its last word is a bracket. -/
def test (t : Task) : Program :=
  if t.name == "[" && t.arguments.getLast? != some "]" then t.fault "missing ]"
  else
    let words := if t.name == "[" then t.arguments.dropLast else t.arguments
    .inspect fun channel => .consult fun files directory =>
      match Condition.scriptValue { files, directory, channel } (words.length + 1) words with
      | .ok b => t.state.proceed (if b then 0 else 1)
      | .error fault => t.fault fault

/-- Prints the times that the process and its children took, which the machine does not count. -/
def times (t : Task) : Program :=
  t.print "0m0.000000s 0m0.000000s\n0m0.000000s 0m0.000000s\n" 0

/-- Prints a limit of the process; there are none. -/
def limit (t : Task) : Program :=
  t.options "HSatfdsmcnpvlrw" fun _ operands =>
    match operands with
    | [] => t.print "unlimited\n" 0
    | [_] => t.done
    | _ => t.fault "too many arguments"

/-- Prints or sets the rights that new files do not get. -/
def mask (t : Task) : Program :=
  t.options "S" fun found operands =>
    .mask none fun old =>
      match operands with
      | [] =>
        if found.isEmpty then
          t.print ("0" ++ String.ofList (List.replicate (3 - (Nat.toDigits 8 old).length) '0' ++ Nat.toDigits 8 old) ++ "\n") 0
        else
          let rights := 0o777 ^^^ old
          t.print ("u=" ++ rightsText (rights / 64) ++ ",g=" ++ rightsText (rights / 8) ++ ",o=" ++ rightsText rights ++ "\n") 0
      | word :: _ =>
        if word.toList.head?.any Char.isDigit then
          if word.toList.all fun c => (octal? c).isSome then
            .mask (some ((readDigits octal? 8 word.length 0 word.toList).1 % 0o1000)) fun _ => t.done
          else t.fault ("Illegal number: " ++ word)
        else
          match changeAll 0 false word (0o777 ^^^ old) with
          | some rights => .mask (some (0o777 ^^^ rights)) fun _ => t.done
          | none => t.fault ("Illegal mode: " ++ word)

end JobShell.Machine.Script.Task
