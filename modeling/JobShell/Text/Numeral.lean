/-!
# Decimal numerals

A numeral is an optional sign and one or more of the digits `0` to `9`, whose value lies in given bounds. Nothing else is a
numeral: no blank, no digit of another script, no separator. A natural numeral has no minus sign, not even before zero.
-/

namespace JobShell.Numeral

/-- The value of one or more decimal digits. -/
def digits? (cs : List Char) : Option Nat :=
  if cs != [] && cs.all Char.isDigit then some (cs.foldl (fun n c => 10 * n + (c.toNat - '0'.toNat)) 0) else none

/-- The value of a natural numeral, at most `bound`. -/
def natural? (bound : Nat) (s : String) : Option Nat :=
  (match s.toList with
    | '+' :: cs => digits? cs
    | cs => digits? cs).filter (· ≤ bound)

/-- The value of a signed numeral between `low` and `high`. -/
def integer? (low high : Int) (s : String) : Option Int :=
  (match s.toList with
    | '+' :: cs => (digits? cs).map Int.ofNat
    | '-' :: cs => (digits? cs).map fun n => -Int.ofNat n
    | cs => (digits? cs).map Int.ofNat).filter fun i => low ≤ i && i ≤ high

/-- The largest number of 64 binary digits. -/
def maxWord : Nat := Nat.pow 2 64 - 1

/-- A natural numeral of at most 64 binary digits. -/
def word? : String → Option Nat := natural? maxWord

/-- A signed numeral of 32 binary digits. -/
def int32? : String → Option Int := integer? (-(Nat.pow 2 31)) (Nat.pow 2 31 - 1)

/-- A signed numeral of 64 binary digits. -/
def int64? : String → Option Int := integer? (-(Nat.pow 2 63)) (Nat.pow 2 63 - 1)

end JobShell.Numeral
