import JobShell.Text.Numeral

/-!
# Numbers with a fraction

A number that is written with a point or an exponent is a fraction with a sign. It can be rounded to so many binary digits, as a
machine keeps it, and written with a fixed number of places, with an exponent, or in whichever of the two ways is shorter. A
half is rounded to the even neighbour.
-/

namespace JobShell.Machine

/-- A number: its sign, and its size as a fraction. -/
structure Decimal where
  negative : Bool := false
  numerator : Nat
  denominator : Nat := 1
  deriving Repr

/-- The quotient rounded to the nearest whole number, a half to the even one. -/
def roundDiv (n d : Nat) : Nat :=
  let q := n / d
  let r := 2 * (n % d)
  if r < d then q else if d < r then q + 1 else q + q % 2

namespace Decimal

/-- The fraction times a power of a base. -/
def scale (x : Decimal) (base : Nat) (e : Int) : Nat × Nat :=
  if 0 ≤ e then (x.numerator * Nat.pow base e.toNat, x.denominator) else (x.numerator, x.denominator * Nat.pow base (-e).toNat)

/-- The number rounded to so many binary digits. -/
def roundToBits (bits : Nat) (x : Decimal) : Decimal :=
  if x.numerator = 0 then x
  else
    let e : Int := (Int.ofNat bits) - (Int.ofNat (Nat.log2 x.numerator) - Int.ofNat (Nat.log2 x.denominator))
    -- The quotient has one digit too many at most, or one more than that.
    let e := if let (n, d) := x.scale 2 e; n / d < Nat.pow 2 bits then e else e - 1
    let (n, d) := x.scale 2 e
    let m := roundDiv n d
    if 0 ≤ e then { x with numerator := m, denominator := Nat.pow 2 e.toNat }
    else { x with numerator := m * Nat.pow 2 (-e).toNat, denominator := 1 }

/-- A number as decimal digits, with zeros before them up to a length. -/
def digits (length n : Nat) : List Char :=
  let ds := Nat.toDigits 10 n
  List.replicate (length - ds.length) '0' ++ ds

/-- Some digits with a point before the last ones. -/
def withPoint (places : Nat) (alternate : Bool) (ds : List Char) : List Char :=
  if places = 0 then ds ++ (if alternate then ['.'] else [])
  else ds.take (ds.length - places) ++ '.' :: ds.drop (ds.length - places)

/-- The size with a fixed number of places. -/
def fixed (places : Nat) (alternate : Bool) (x : Decimal) : List Char :=
  let (n, d) := x.scale 10 places
  withPoint places alternate (digits (places + 1) (roundDiv n d))

/-- The power of ten at which the first digit stands, and so many digits after the first one, rounded. -/
def leading (places : Nat) (x : Decimal) : Int × List Char :=
  if x.numerator = 0 then (0, List.replicate (places + 1) '0')
  else
    let guess : Int := Int.ofNat (Nat.toDigits 10 x.numerator).length - Int.ofNat (Nat.toDigits 10 x.denominator).length
    let e := if let (n, d) := x.scale 10 (-guess); d ≤ n then guess else guess - 1
    let (n, d) := x.scale 10 (places - e)
    let ds := digits 1 (roundDiv n d)
    if places + 1 < ds.length then (e + 1, ds.take (places + 1)) else (e, ds)

/-- An exponent with its sign and two digits at least. -/
def exponentText (letter : Char) (e : Int) : List Char :=
  letter :: (if e < 0 then '-' else '+') :: digits 2 e.natAbs

/-- The size with one digit before the point, and an exponent. -/
def scientific (places : Nat) (alternate : Bool) (letter : Char) (x : Decimal) : List Char :=
  let (e, ds) := x.leading places
  withPoint places alternate ds ++ exponentText letter e

/-- Digits without the zeros at the end of their fraction. -/
def trimZeros (ds : List Char) : List Char :=
  if ds.contains '.' then ((ds.reverse.dropWhile (· == '0')).dropWhile (· == '.')).reverse else ds

/-- The size with so many digits, in the shorter way. -/
def general (precision : Nat) (alternate : Bool) (letter : Char) (x : Decimal) : List Char :=
  let p := max precision 1
  let (e, ds) := x.leading (p - 1)
  let trim (cs : List Char) : List Char := if alternate then cs else trimZeros cs
  if -4 ≤ e && e < p then trim (x.fixed (Int.ofNat p - 1 - e).toNat alternate)
  else trim (withPoint (p - 1) alternate ds) ++ exponentText letter e

/-- The number at the front of some characters, without blanks before it, and the rest. -/
def read? (cs : List Char) : Option (Decimal × List Char) :=
  let (negative, cs) := match cs with
    | '-' :: rest => (true, rest)
    | '+' :: rest => (false, rest)
    | _ => (false, cs)
  let whole := cs.takeWhile Char.isDigit
  let rest := cs.dropWhile Char.isDigit
  let (fraction, rest) := match rest with
    | '.' :: more =>
      if whole.isEmpty && !(more.head?.any Char.isDigit) then ([], rest)
      else (more.takeWhile Char.isDigit, more.dropWhile Char.isDigit)
    | _ => ([], rest)
  if whole.isEmpty && fraction.isEmpty then none
  else
    let mantissa := (Numeral.digits? (whole ++ fraction)).getD 0
    let (e, rest) : Int × List Char := match rest with
      | c :: more =>
        if c == 'e' || c == 'E' then
          let (minus, ds) := match more with
            | '-' :: ds => (true, ds)
            | '+' :: ds => (false, ds)
            | ds => (false, ds)
          match Numeral.digits? (ds.takeWhile Char.isDigit) with
          | some n => (if minus then -Int.ofNat (min n 5000) else Int.ofNat (min n 5000), ds.dropWhile Char.isDigit)
          | none => (0, rest)
        else (0, rest)
      | [] => (0, [])
    let (n, d) := ({ numerator := mantissa, denominator := Nat.pow 10 fraction.length } : Decimal).scale 10 e
    some ({ negative, numerator := n, denominator := d }, rest)

end Decimal

end JobShell.Machine
