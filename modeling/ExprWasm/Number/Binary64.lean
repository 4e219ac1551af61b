/-! Double-precision numbers as 64-bit words, without machine arithmetic.

The magnitude of a finite number is a whole number of units of 2^-1074, the least positive number,
so that values are compared and rounded in exact integer arithmetic. Main function:
`Binary64.nearest`, the number closest to a quotient, with ties to the even neighbour. -/

set_option autoImplicit false

namespace ExprWasm.Number

structure Binary64 where
  bits : UInt64
  deriving DecidableEq

namespace Binary64

def fractionCount : Nat := 1 <<< 52

/-- The pattern of the infinite magnitude; larger patterns are not numbers. -/
def infinitePattern : Nat := 2047 * fractionCount

def unitsPerOne : Nat := 1 <<< 1074

def isNegative (number : Binary64) : Bool :=
  1 <<< 63 ≤ number.bits.toNat

def pattern (number : Binary64) : Nat :=
  number.bits.toNat % (1 <<< 63)

def isNaN (number : Binary64) : Bool :=
  infinitePattern < number.pattern

def isInfinite (number : Binary64) : Bool :=
  number.pattern = infinitePattern

def isFinite (number : Binary64) : Bool :=
  number.pattern < infinitePattern

/-- The magnitude that belongs to a pattern, in units of 2^-1074. Patterns with exponent zero count
the units directly; from there on each step of the exponent doubles the step between neighbours. -/
def patternUnits (pattern : Nat) : Nat :=
  let exponent := pattern / fractionCount
  let fraction := pattern % fractionCount
  if exponent = 0 then fraction
  else (fractionCount + fraction) <<< (exponent - 1)

def units (number : Binary64) : Nat :=
  patternUnits number.pattern

def isIntegral (number : Binary64) : Bool :=
  number.isFinite && number.units % unitsPerOne = 0

def wholePart (number : Binary64) : Nat :=
  number.units / unitsPerOne

/-- Equality of values: the two zeros are equal, and what is not a number equals nothing. -/
def sameValue (left right : Binary64) : Bool :=
  !left.isNaN && !right.isNaN &&
    (left.bits == right.bits || (left.pattern == 0 && right.pattern == 0))

/-- The whole number closest to a quotient, and the even one of two that are equally close. -/
def roundQuotient (numerator denominator : Nat) : Nat :=
  let quotient := numerator / denominator
  let remainder := numerator % denominator
  if 2 * remainder < denominator then quotient
  else if denominator < 2 * remainder then quotient + 1
  else if quotient % 2 = 0 then quotient
  else quotient + 1

/-- The pattern of the number closest to `numerator / denominator`. The quotient, counted in units,
is rounded to 53 significant binary places; a carry into a further place runs on into the
exponent. -/
def nearestPattern (numerator denominator : Nat) : Nat :=
  let scaled := numerator * unitsPerOne
  let exponent := (scaled / denominator).log2 - 52
  let rounded := roundQuotient scaled (denominator <<< exponent)
  min (exponent * fractionCount + rounded) infinitePattern

/-- The number closest to `numerator / denominator`, the even one of two that are equally close, and
infinity for a quotient beyond the largest number and half of its last step. -/
def nearest (numerator denominator : Nat) : Binary64 :=
  ⟨UInt64.ofNat (nearestPattern numerator denominator)⟩

end Binary64

end ExprWasm.Number
