import GraphGate.Decimal.Binary64

namespace GraphGate

/-!
# The fewest digits that read back

The text of a double has the fewest significant digits that round to it again.
Among the decimals of that length the nearest to the double is taken, and of two
equally near ones the one with an even last digit.

A double is the centre of an interval of reals that round to it. For one digit,
two digits, and so on, only the two neighbours of the double on the grid of that
many digits have to be tried: if any point of the grid lies in the interval, one
of those two does.
-/

/-- A positive decimal: `digits` times ten to the power `exponent`. -/
structure Decimal where
  digits : Nat
  exponent : Int
deriving Repr, DecidableEq

namespace Decimal

/--
A real interval around a positive double in units of `1 / denominator`: the
double itself, how far the interval reaches down and up, and whether its ends
belong to it.
-/
structure RoundingInterval where
  centre : Nat
  below : Nat
  above : Nat
  denominator : Nat
  closed : Bool
deriving Repr, DecidableEq

namespace RoundingInterval

/-- The reals that round to a finite, nonzero double. -/
def ofBinary64 (number : Binary64) : RoundingInterval :=
  let (significand, exponent) := number.decode
  let scale (quarters : Nat) : Nat :=
    if exponent < 0 then quarters else quarters * Nat.pow 2 exponent.natAbs
  let atPowerOfTwo :=
    significand = Binary64.significandSpan ∧ -1074 < exponent
  { centre := scale (4 * significand)
    below := scale (if atPowerOfTwo then 1 else 2)
    above := scale 2
    denominator :=
      if exponent < 0 then 4 * Nat.pow 2 exponent.natAbs else 4
    closed := significand % 2 = 0 }

/-- Whether a fraction over the same denominator lies in the interval. -/
def contains
    (interval : RoundingInterval)
    (numerator denominator : Nat) : Bool :=
  let point := numerator * interval.denominator
  let low := (interval.centre - interval.below) * denominator
  let high := (interval.centre + interval.above) * denominator
  if interval.closed then
    decide (low ≤ point ∧ point ≤ high)
  else
    decide (low < point ∧ point < high)

end RoundingInterval

/-- A decimal as a fraction of natural numbers. -/
def fraction (decimal : Decimal) : Nat × Nat :=
  if decimal.exponent < 0 then
    (decimal.digits, Nat.pow 10 decimal.exponent.natAbs)
  else
    (decimal.digits * Nat.pow 10 decimal.exponent.natAbs, 1)

/-- The greatest number of grid steps that is not above the centre. -/
def stepsBelow (interval : RoundingInterval) (exponent : Int) : Nat :=
  if exponent < 0 then
    interval.centre * Nat.pow 10 exponent.natAbs / interval.denominator
  else
    interval.centre / (interval.denominator * Nat.pow 10 exponent.natAbs)

/-- Twice the centre compared with the middle of two neighbouring grid points. -/
def compareToMiddle
    (interval : RoundingInterval)
    (steps : Nat)
    (exponent : Int) : Ordering :=
  let middle := fraction ⟨2 * steps + 1, exponent⟩
  compare
    (2 * interval.centre * middle.2)
    (middle.1 * interval.denominator)

/-- The grid point nearest to the centre among the neighbours in the interval. -/
def onGrid? (interval : RoundingInterval) (exponent : Int) : Option Decimal :=
  let steps := stepsBelow interval exponent
  let inside (count : Nat) : Bool :=
    let point := fraction ⟨count, exponent⟩
    interval.contains point.1 point.2
  match inside steps && steps != 0, inside (steps + 1) with
  | true, true =>
      match compareToMiddle interval steps exponent with
      | .lt => some ⟨steps, exponent⟩
      | .gt => some ⟨steps + 1, exponent⟩
      | .eq => some ⟨steps + steps % 2, exponent⟩
  | true, false => some ⟨steps, exponent⟩
  | false, true => some ⟨steps + 1, exponent⟩
  | false, false => none

/-- The power of ten of the first digit of a positive fraction. -/
def leadingExponent (numerator denominator : Nat) : Int :=
  if denominator ≤ numerator then
    ((Nat.toDigits 10 (numerator / denominator)).length : Int) - 1
  else
    let inverse := (denominator + numerator - 1) / numerator
    Int.neg (Nat.toDigits 10 (inverse - 1)).length

/-- The decimal without zeros at the end of its digits. -/
def trimZeros (digits : Nat) (exponent : Int) : Decimal :=
  if digits ≠ 0 ∧ digits % 10 = 0 then
    trimZeros (digits / 10) (exponent + 1)
  else
    ⟨digits, exponent⟩
termination_by digits

/-- The shortest decimal that rounds to a finite, nonzero double. -/
def shortest (number : Binary64) : Decimal :=
  let interval := RoundingInterval.ofBinary64 number
  let leading := leadingExponent interval.centre interval.denominator
  let found :=
    (List.range 18).findSome? fun (places : Nat) =>
      onGrid? interval (leading - places)
  match found with
  | some decimal => trimZeros decimal.digits decimal.exponent
  | none => ⟨0, 0⟩

end Decimal

/-- How a double is written: when positional, and how an exponent looks. -/
structure FloatLayout where
  lowestPositional : Int
  highestPositional : Int
  exponentMark : String
  positiveSign : String
deriving Repr, DecidableEq

namespace FloatLayout

/--
Doubles are written positionally while the power of ten of their first digit is
between -5 and 15, and always with a fraction; any other has a signed exponent.
-/
def standard : FloatLayout where
  lowestPositional := -5
  highestPositional := 15
  exponentMark := "e"
  positiveSign := "+"

/-- Digits with a point before the last `places` of them. -/
def positional (digits : List Char) (exponent : Int) : List Char :=
  if 0 ≤ exponent then
    digits ++ List.replicate exponent.natAbs '0' ++ ['.', '0']
  else
    let places := exponent.natAbs
    let padded :=
      List.replicate (places + 1 - digits.length) '0' ++ digits
    padded.take (padded.length - places) ++
      '.' :: padded.drop (padded.length - places)

/-- One digit before the point, the others behind it, and the exponent. -/
def scientific
    (layout : FloatLayout)
    (digits : List Char)
    (leading : Int) : List Char :=
  let significand :=
    match digits with
    | [] => []
    | [digit] => [digit]
    | digit :: rest => digit :: '.' :: rest
  let sign := if leading < 0 then "-" else layout.positiveSign
  significand ++ layout.exponentMark.toList ++ sign.toList ++
    Nat.toDigits 10 leading.natAbs

/-- The text of a finite double. -/
def render (layout : FloatLayout) (number : Binary64) : String :=
  let sign := if number.isNegative then ['-'] else []
  if number.magnitude = 0 then
    String.ofList (sign ++ ['0', '.', '0'])
  else
    let decimal := Decimal.shortest number
    let digits := Nat.toDigits 10 decimal.digits
    let leading := decimal.exponent + digits.length - 1
    if layout.lowestPositional ≤ leading ∧
        leading ≤ layout.highestPositional then
      String.ofList (sign ++ positional digits decimal.exponent)
    else
      String.ofList (sign ++ layout.scientific digits leading)

end FloatLayout

end GraphGate
