namespace GraphGate

/-!
# Double-precision numbers

A double is kept as its 64 bits, so that two of them are equal exactly when
they are the same number with the same sign, and every step from and to decimal
text is arithmetic on natural numbers.
-/

/-- A double-precision number, given by its bits. -/
structure Binary64 where
  bits : UInt64
deriving Repr, DecidableEq, Inhabited

namespace Binary64

/-- How many different significands share one binary exponent. -/
def significandSpan : Nat := Nat.pow 2 52

/-- The magnitude bits of infinity: the largest exponent and no fraction. -/
def infinityMagnitude : Nat := 2047 * significandSpan

/-- A double from its sign and the 63 bits of its magnitude. -/
def ofMagnitude (negative : Bool) (magnitude : Nat) : Binary64 :=
  ⟨UInt64.ofNat (if negative then Nat.pow 2 63 + magnitude else magnitude)⟩

/-- Whether the sign bit is set. -/
def isNegative (number : Binary64) : Bool :=
  Nat.pow 2 63 ≤ number.bits.toNat

/-- All bits but the sign. -/
def magnitude (number : Binary64) : Nat :=
  number.bits.toNat % Nat.pow 2 63

/-- Neither an infinity nor a mark for "not a number". -/
def isFinite (number : Binary64) : Bool :=
  number.magnitude < infinityMagnitude

/-- The significand and binary exponent of a finite magnitude. -/
def decode (number : Binary64) : Nat × Int :=
  let exponent := number.magnitude / significandSpan
  let fraction := number.magnitude % significandSpan
  if exponent = 0 then
    (fraction, -1074)
  else
    (significandSpan + fraction, (exponent : Int) - 1075)

/-- The quotient of two numbers, rounded to the nearest; a half goes to the even one. -/
def roundToEven (numerator denominator : Nat) : Nat :=
  let quotient := numerator / denominator
  let twice := 2 * (numerator % denominator)
  if twice < denominator then
    quotient
  else if denominator < twice then
    quotient + 1
  else
    quotient + quotient % 2

/--
The magnitude bits of the double nearest to a positive quotient. A significand
that rounds up to the next power of two carries into the exponent bits.
-/
def nearestMagnitude (numerator denominator : Nat) : Nat :=
  let estimate : Int :=
    (numerator.log2 : Int) - (denominator.log2 : Int) - 53
  let scaled (exponent : Int) : Nat × Nat :=
    if exponent < 0 then
      (numerator * Nat.pow 2 exponent.natAbs, denominator)
    else
      (numerator, denominator * Nat.pow 2 exponent.natAbs)
  let first := scaled estimate
  let exponent :=
    if first.2 * Nat.pow 2 53 ≤ first.1 then estimate + 1 else estimate
  let exponent := max (-1074) exponent
  let parts := scaled exponent
  (exponent + 1074).toNat * significandSpan + roundToEven parts.1 parts.2

/--
The double nearest to `digits` times ten to the power `exponent`. A number too
large for every double becomes infinite.
-/
def ofDecimal (negative : Bool) (digits : Nat) (exponent : Int) : Binary64 :=
  let leading : Int := (Nat.toDigits 10 digits).length + exponent
  let magnitude :=
    if digits = 0 ∨ leading < -400 then
      0
    else if 400 < leading then
      infinityMagnitude
    else if exponent < 0 then
      nearestMagnitude digits (Nat.pow 10 exponent.natAbs)
    else
      nearestMagnitude (digits * Nat.pow 10 exponent.natAbs) 1
  ofMagnitude negative (min magnitude infinityMagnitude)

end Binary64

end GraphGate
