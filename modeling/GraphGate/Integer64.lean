namespace GraphGate

/-!
# Integers of 64 bits

The integers that fit 64 bits, with a sign or without.
-/

namespace Integer64

/-- The smallest integer with a sign, two to the power 63 below zero. -/
def minSigned : Int := -9223372036854775808

/-- The largest integer with a sign, one less than two to the power 63. -/
def maxSigned : Int := 9223372036854775807

/-- The largest integer without a sign, one less than two to the power 64. -/
def maxUnsigned : Int := 18446744073709551615

/-- Whether an integer fits with a sign. -/
def isSigned (value : Int) : Bool :=
  minSigned ≤ value && value ≤ maxSigned

/-- Whether an integer fits without a sign. -/
def isUnsigned (value : Int) : Bool :=
  0 ≤ value && value ≤ maxUnsigned

end Integer64

end GraphGate
