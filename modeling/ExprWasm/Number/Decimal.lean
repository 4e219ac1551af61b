import ExprWasm.Number.Binary64

/-! Decimal fractions as they are written in a program: digits, and a point with further digits.

A decimal is a whole number together with the count of its digits after the point. Reading keeps the
denoted number exactly; only `Decimal.toBinary64` rounds it. -/

set_option autoImplicit false

namespace ExprWasm.Number

/-- The number `coefficient / 10 ^ places`. -/
structure Decimal where
  coefficient : Nat
  places : Nat
  deriving DecidableEq

namespace Decimal

def isDigit (c : Char) : Bool :=
  '0' ≤ c && c ≤ '9'

/-- The number that digits denote when they follow the digits of `high`. -/
def digitsValue (high : Nat) (digits : List Char) : Nat :=
  digits.foldl (fun value digit => 10 * value + (digit.toNat - 48)) high

def read? (text : List Char) : Option Decimal :=
  let whole := text.takeWhile isDigit
  if whole.isEmpty then none
  else
    match text.dropWhile isDigit with
    | [] => some ⟨digitsValue 0 whole, 0⟩
    | point :: fraction =>
        if point = '.' && fraction.all isDigit then
          some ⟨digitsValue (digitsValue 0 whole) fraction, fraction.length⟩
        else none

/-- How many steps of the last digit make up one: ten to the number of places. -/
def scale (places : Nat) : Nat :=
  Nat.pow 10 places

def toBinary64 (decimal : Decimal) : Binary64 :=
  Binary64.nearest decimal.coefficient (scale decimal.places)

def paddedDigits (width value : Nat) : List Char :=
  let digits := Nat.toDigits 10 value
  List.replicate (width - digits.length) '0' ++ digits

/-- The digits of a decimal; the point is written only before at least one digit. -/
def text (decimal : Decimal) : List Char :=
  let whole := Nat.toDigits 10 (decimal.coefficient / scale decimal.places)
  if decimal.places = 0 then whole
  else whole ++ '.' :: paddedDigits decimal.places (decimal.coefficient % scale decimal.places)

end Decimal

end ExprWasm.Number
