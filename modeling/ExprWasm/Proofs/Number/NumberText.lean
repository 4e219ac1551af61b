import ExprWasm.Proofs.Number.Numeral

/-! The text of a finite number is a numeral, with a sign in front of a negative one.

A whole number is written exactly, and the numeral of any other number is rounded to it. Main
statements: `Binary64.signed_roundsTo` and `Binary64.shortestDecimal_of_whole`. -/

set_option autoImplicit false

namespace ExprWasm.Number

def Decimal.numeral (decimal : Decimal) : Numeral where
  whole := Nat.toDigits 10 (decimal.coefficient / scale decimal.places)
  fraction :=
    if decimal.places = 0 then none
    else some (paddedDigits decimal.places (decimal.coefficient % scale decimal.places))
  nonempty := Nat.toDigits_ne_nil
  digits := toDigits_digits _
  furtherDigits := by
    intro c member
    split at member
    · cases member
    · exact paddedDigits_digits _ _ c member

namespace Decimal

variable (decimal : Decimal)

theorem numeral_text : decimal.numeral.text = decimal.text := by
  unfold Numeral.text numeral text
  split
  · rename_i none
    split at none
    · rename_i whole
      simp only [if_pos whole]
    · cases none
  · rename_i further some
    split at some
    · cases some
    · rename_i places
      cases some
      simp only [if_neg places]

/-- A numeral that a decimal is written as is read as that decimal. -/
theorem numeral_decimal : decimal.numeral.decimal = decimal := by
  have read := decimal.numeral.read?_text
  rw [numeral_text, read?_text] at read
  exact (Option.some.inj read).symm

theorem numeral_fraction_ne : decimal.numeral.fraction ≠ some [] := by
  intro empty
  have places := congrArg Decimal.places decimal.numeral_decimal
  rw [Numeral.decimal, empty] at places
  have pointless : decimal.numeral.fraction = none := if_pos places.symm
  rw [pointless] at empty
  cases empty

theorem numeral_value :
    decimal.numeral.value = decimal.coefficient / (scale decimal.places : Nat) := by
  rw [Numeral.value_eq_decimal, numeral_decimal]

end Decimal

namespace Binary64

variable {number : Binary64}

theorem abs_value (number : Binary64) : |number.value| = magnitude number.pattern := by
  have notNegative : 0 ≤ magnitude number.pattern := by
    unfold magnitude
    positivity
  rw [value_eq_rankValue, rank]
  split
  · rw [rankValue_neg, abs_neg]
    exact abs_of_nonneg notNegative
  · exact abs_of_nonneg notNegative

/-- A whole number is written with all its digits. -/
theorem shortestDecimal_of_whole (finite : number.isFinite = true) {whole : Nat}
    (same : |number.value| = whole) : number.shortestDecimal = ⟨whole, 0⟩ := by
  have units : number.units = whole * unitsPerOne := by
    rw [abs_value, magnitude, div_eq_iff unitsPerOne_cast_pos.ne'] at same
    exact_mod_cast same
  have positive : 0 < unitsPerOne := Nat.cast_pos.mp unitsPerOne_cast_pos
  have integral : number.isIntegral = true := by
    rw [isIntegral, finite, units, Nat.mul_mod_left]
    rfl
  rw [shortestDecimal, if_pos integral, wholePart, units, Nat.mul_div_cancel _ positive]

theorem numeral_of_whole (finite : number.isFinite = true) {whole : ℤ}
    (same : number.value = whole) :
    number.shortestDecimal.numeral.fraction = none ∧
      number.shortestDecimal.numeral.value = |number.value| := by
  have size : |number.value| = whole.natAbs := by
    rw [same, Nat.cast_natAbs, Int.cast_abs]
  rw [Decimal.numeral_value, shortestDecimal_of_whole finite size, size]
  exact ⟨rfl, by rw [Numeral.scale_cast, pow_zero, div_one]⟩

theorem value_neg_iff (number : Binary64) :
    number.value < 0 ↔ number.isNegative = true ∧ number.pattern ≠ 0 := by
  have zero : rankValue 0 = 0 := magnitude_zero
  rw [value_eq_rankValue, ← zero, rankValue_lt_iff, rank]
  split
  · rename_i negative
    simp only [negative, true_and]
    omega
  · rename_i unsigned
    exact iff_of_false (by omega) fun both => unsigned both.1

/-- The sign that is written in front of the digits of a number. -/
theorem signText_eq (number : Binary64) :
    number.signText = if number.value < 0 then ['-'] else [] := by
  simp only [signText, value_neg_iff, Bool.and_eq_true, decide_eq_true_eq]

theorem text_eq_signed (finite : number.isFinite = true) :
    number.text.toList =
      (if number.value < 0 then ['-'] else []) ++ number.shortestDecimal.numeral.text := by
  have below : number.pattern < infinitePattern := of_decide_eq_true finite
  have isNumber : number.isNaN = false := decide_eq_false (by omega)
  have bounded : number.isInfinite = false := decide_eq_false (by omega)
  rw [text, isNumber, bounded, Decimal.numeral_text, signText_eq]
  exact String.toList_ofList

/-- The value that the text of a number denotes is rounded to the number. -/
theorem signed_roundsTo (finite : number.isFinite = true) :
    RoundsTo
      (if number.value < 0 then -number.shortestDecimal.numeral.value
        else number.shortestDecimal.numeral.value) number := by
  have rounds := roundsTo_of_nearestPattern _ (Decimal.scale_pos _)
    (shortestDecimal_reads_back finite)
  rw [← Decimal.numeral_value] at rounds
  simp only [value_neg_iff]
  by_cases negative : number.isNegative = true
  · rw [if_pos negative] at rounds
    by_cases zero : number.pattern = 0
    · -- The negative zero is written without its sign, and a zero has none to lose.
      have none : |number.value| = (0 : Nat) := by
        rw [abs_value, zero, magnitude_zero, Nat.cast_zero]
      have nothing : number.shortestDecimal.numeral.value = 0 := by
        rw [Decimal.numeral_value, shortestDecimal_of_whole finite none, Nat.cast_zero, zero_div]
      rw [nothing, neg_zero] at rounds
      rw [if_neg fun both => both.2 zero, nothing]
      exact rounds
    · rw [if_pos ⟨negative, zero⟩]
      exact rounds
  · rw [if_neg negative] at rounds
    rw [if_neg fun both => negative both.1]
    exact rounds

end Binary64

namespace Numeral

/-- A numeral of a whole number with at most 53 binary places is read as that number. -/
theorem literal_of_whole {numeral : Numeral} {whole : Nat} (small : whole ≤ 2 ^ 53)
    (denotes : numeral.value = whole) :
    numeral.literal.isFinite = true ∧ |numeral.literal.value| = whole := by
  have positive := Decimal.scale_pos numeral.decimal.places
  obtain ⟨pattern, bound, units⟩ := @Binary64.exists_whole_pattern whole 1074 rfl small
  have finite : pattern < Binary64.infinitePattern := Nat.lt_of_le_of_lt bound (by decide)
  have coefficient : numeral.decimal.coefficient =
      whole * Decimal.scale numeral.decimal.places := by
    rw [value_eq_decimal, div_eq_iff (Nat.cast_ne_zero.mpr positive.ne')] at denotes
    exact_mod_cast denotes
  have same : numeral.literal.pattern = pattern := by
    rw [literal, Decimal.toBinary64, Binary64.nearest_pattern, coefficient]
    apply Binary64.nearestPattern_exact positive finite
    rw [units]
    ring
  refine ⟨decide_eq_true (same ▸ finite), ?_⟩
  rw [Binary64.abs_value, same, Binary64.magnitude, units, Nat.cast_mul,
    mul_div_cancel_right₀ _ Binary64.unitsPerOne_cast_pos.ne']

theorem literal_text_of_whole {numeral : Numeral} {whole : Nat} (small : whole ≤ 2 ^ 53)
    (denotes : numeral.value = whole) : numeral.literal.text = toString whole := by
  obtain ⟨finite, same⟩ := literal_of_whole small denotes
  have unsigned : numeral.literal.signText = [] := Binary64.nearest_signText _ _
  rw [Binary64.text_of_finite finite unsigned, Binary64.shortestDecimal_of_whole finite same]
  change String.ofList (Nat.toDigits 10 (whole / 1)) = _
  rw [Nat.div_one]
  rfl

end Numeral

end ExprWasm.Number
