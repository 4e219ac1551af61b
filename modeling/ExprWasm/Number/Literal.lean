import ExprWasm.Number.Decimal

/-! The text of a number in program and module.

A whole number is written with all its digits. Any other finite number is written with the fewest
places after the point that read back as the same number: of the two decimals with that many places
next to it, the nearer one that reads back, and the one with the even last digit when they are
equally near. An exponent is never written. -/

set_option autoImplicit false

namespace ExprWasm.Number

namespace Binary64

/-- The two decimals with the given number of places next to a magnitude of `units`, the preferred
one first: the lower unless the upper is nearer, or equally near with an even last digit. -/
def neighbours (units places : Nat) : List Decimal :=
  let scaled := units * Decimal.scale places
  let lower := scaled / unitsPerOne
  let remainder := scaled % unitsPerOne
  let below : Decimal := ⟨lower, places⟩
  let above : Decimal := ⟨lower + 1, places⟩
  if unitsPerOne < 2 * remainder then [above, below]
  else if 2 * remainder < unitsPerOne then [below, above]
  else if lower % 2 = 0 then [below, above]
  else [above, below]

/-- The first decimal that reads back as `pattern`, trying `places` and then `attempts` more. With
all 1074 places the lower neighbour is the number itself. -/
def shortestFrom (pattern places : Nat) : (attempts : Nat) → Decimal
  | 0 => ⟨patternUnits pattern * Decimal.scale places / unitsPerOne, places⟩
  | attempts + 1 =>
      match (neighbours (patternUnits pattern) places).find? fun decimal =>
          nearestPattern decimal.coefficient (Decimal.scale decimal.places) == pattern with
      | some decimal => decimal
      | none => shortestFrom pattern (places + 1) attempts

def shortestDecimal (number : Binary64) : Decimal :=
  if number.isIntegral then ⟨number.wholePart, 0⟩
  else shortestFrom number.pattern 1 1073

/-- The sign, which zero does not have. -/
def signText (number : Binary64) : List Char :=
  if number.isNegative && number.pattern ≠ 0 then ['-'] else []

def text (number : Binary64) : String :=
  if number.isNaN then "nan"
  else if number.isInfinite then String.ofList number.signText ++ "inf"
  else String.ofList (number.signText ++ number.shortestDecimal.text)

end Binary64

end ExprWasm.Number
