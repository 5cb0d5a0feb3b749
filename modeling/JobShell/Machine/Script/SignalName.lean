import JobShell.Signal
import JobShell.Text.Numeral

/-!
# Names of signals in a script

A script names signals without the first three letters, in any case, or by their numbers. The signals from 34 to 64 are named by
their distance to the nearer end of that range, and a few numbers have no name but themselves.
-/

namespace JobShell.Machine.Script

/-- The largest number of a signal. -/
def maxSignal : Nat := 64

/-- The first and the last of the signals that are named by their distance. -/
def firstRealTime : Nat := 34

/-- The signals of a script by their numbers, beginning with the end of the script. -/
def signalName (n : Nat) : String :=
  if n = 0 then "EXIT"
  else if n = maxSignal then "RTMAX"
  else if n = firstRealTime then "RTMIN"
  else if firstRealTime < n && n ≤ firstRealTime + 15 then "RTMIN+" ++ toString (n - firstRealTime)
  else if firstRealTime < n then "RTMAX-" ++ toString (maxSignal - n)
  else match Signal.ofNumber? n with
    | some .stkflt | none => toString n
    | some s => String.ofList (s.name.toList.drop 3)

/-- The number of the signal that a word names; by their names, only the ones from `low` on are meant. -/
def signalNumber? (low : Nat) (word : String) : Option Nat :=
  if !word.isEmpty && word.toList.all Char.isDigit then Numeral.natural? maxSignal word
  else ((List.range (maxSignal + 1)).drop low).find? fun n => (signalName n).map Char.toUpper == word.map Char.toUpper

end JobShell.Machine.Script
