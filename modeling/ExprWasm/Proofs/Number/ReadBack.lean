import ExprWasm.Number.Literal

/-! The text of a number reads back as the number.

A number is its own nearest number, in whatever way it is written as a quotient. The decimal that is
written is one that was tried and reads back, or one that is the number exactly; and the digits of a
decimal read as that decimal. -/

set_option autoImplicit false

namespace ExprWasm.Number

theorem Decimal.scale_pos (places : Nat) : 0 < scale places :=
  Nat.pow_pos (by decide)

namespace Binary64

/-! ### Numbers that are written exactly -/

theorem roundQuotient_exact {divisor : Nat} (positive : 0 < divisor) (quotient : Nat) :
    roundQuotient (divisor * quotient) divisor = quotient := by
  unfold roundQuotient
  simp only [Nat.mul_div_cancel_left quotient positive, Nat.mul_mod_right, Nat.mul_zero,
    if_pos positive]

theorem log2_small {units : Nat} (small : units < fractionCount) : units.log2 - 52 = 0 := by
  by_cases zero : units = 0
  · rw [zero]
    rfl
  · have bound : units < 2 ^ 52 := small
    have below := (Nat.log2_lt zero).mpr bound
    omega

theorem log2_scaled {significand : Nat} (low : fractionCount ≤ significand)
    (high : significand < 2 * fractionCount) (exponent : Nat) :
    (significand <<< exponent).log2 - 52 = exponent := by
  have positive : 0 < 2 ^ exponent := Nat.two_pow_pos exponent
  have nonzero : significand * 2 ^ exponent ≠ 0 := by
    have least : 0 < fractionCount := by decide
    exact Nat.mul_ne_zero (by omega) (by omega)
  have exact : (significand * 2 ^ exponent).log2 = 52 + exponent := by
    rw [Nat.log2_eq_iff nonzero]
    constructor
    · rw [Nat.pow_add]
      exact Nat.mul_le_mul_right _ low
    · rw [Nat.add_right_comm, Nat.pow_add]
      exact Nat.mul_lt_mul_of_pos_right high positive
  rw [Nat.shiftLeft_eq]
  omega

/-- A quotient that is a number exactly is rounded to that number. -/
theorem nearestPattern_exact
    {numerator denominator pattern : Nat} (positive : 0 < denominator)
    (finite : pattern < infinitePattern)
    (exact : numerator * unitsPerOne = denominator * patternUnits pattern) :
    nearestPattern numerator denominator = pattern := by
  have split := Nat.div_add_mod pattern fractionCount
  have below : pattern % fractionCount < fractionCount := Nat.mod_lt _ (by decide)
  unfold nearestPattern
  simp only [exact, Nat.mul_div_cancel_left _ positive]
  unfold patternUnits
  generalize pattern / fractionCount = exponent at split
  generalize pattern % fractionCount = fraction at split below
  -- With the least exponent the fraction counts units; otherwise the quotient has 53 places.
  by_cases least : exponent = 0
  · simp only [if_pos least, log2_small below, Nat.shiftLeft_zero,
      roundQuotient_exact positive, Nat.zero_mul, Nat.zero_add]
    rw [least, Nat.mul_zero, Nat.zero_add] at split
    rw [split, Nat.min_eq_left (Nat.le_of_lt finite)]
  · have low : fractionCount ≤ fractionCount + fraction := Nat.le_add_right _ _
    have high : fractionCount + fraction < 2 * fractionCount := by omega
    have scaled : denominator * (fractionCount + fraction) <<< (exponent - 1) =
        denominator <<< (exponent - 1) * (fractionCount + fraction) := by
      rw [Nat.shiftLeft_eq, Nat.shiftLeft_eq, Nat.mul_comm (fractionCount + fraction),
        Nat.mul_assoc]
    have step : 0 < denominator <<< (exponent - 1) := by
      rw [Nat.shiftLeft_eq]
      exact Nat.mul_pos positive (Nat.two_pow_pos _)
    simp only [if_neg least, log2_scaled low high]
    rw [scaled, roundQuotient_exact step]
    have joined : (exponent - 1) * fractionCount + (fractionCount + fraction) = pattern := by
      obtain ⟨before, rfl⟩ := Nat.exists_eq_succ_of_ne_zero least
      rw [← split, Nat.succ_sub_one, Nat.succ_eq_add_one, Nat.mul_comm fractionCount,
        Nat.add_mul, Nat.one_mul, Nat.add_assoc]
    rw [joined, Nat.min_eq_left (Nat.le_of_lt finite)]

/-! ### The decimal that is written -/

-- The unit of `1 <<< 1074` must not be evaluated when the recursion is unfolded.
attribute [local irreducible] neighbours in
theorem shortestFrom_succ (pattern places attempts : Nat) :
    shortestFrom pattern places (attempts + 1) =
      match (neighbours (patternUnits pattern) places).find? fun decimal =>
          nearestPattern decimal.coefficient (Decimal.scale decimal.places) == pattern with
      | some decimal => decimal
      | none => shortestFrom pattern (places + 1) attempts := rfl

theorem shortestFrom_reads_back
    {pattern full : Nat} (finite : pattern < infinitePattern) (one : unitsPerOne = 1 <<< full)
    (attempts places : Nat) (enough : places + attempts = full) :
    nearestPattern (shortestFrom pattern places attempts).coefficient
      (Decimal.scale (shortestFrom pattern places attempts).places) = pattern := by
  induction attempts generalizing places with
  | zero =>
      have all : places = full := enough
      have even : Decimal.scale places = unitsPerOne * 5 ^ places := by
        rw [one, ← all, Nat.one_shiftLeft]
        exact Nat.mul_pow 2 5 places
      have divides : unitsPerOne ∣ patternUnits pattern * Decimal.scale places := by
        rw [even]
        exact Nat.dvd_mul_left_of_dvd (Nat.dvd_mul_right _ _) _
      apply nearestPattern_exact (Decimal.scale_pos places) finite
      exact (Nat.div_mul_cancel divides).trans (Nat.mul_comm _ _)
  | succ attempts inductionHypothesis =>
      have further : places + 1 + attempts = full := by omega
      rw [shortestFrom_succ]
      split
      · rename_i decimal found
        have accepted := List.find?_some found
        exact eq_of_beq accepted
      · exact inductionHypothesis (places + 1) further

theorem shortestDecimal_reads_back {number : Binary64} (finite : number.isFinite = true) :
    nearestPattern number.shortestDecimal.coefficient
      (Decimal.scale number.shortestDecimal.places) = number.pattern := by
  have below : number.pattern < infinitePattern := of_decide_eq_true finite
  unfold shortestDecimal
  split
  · rename_i integral
    have whole : number.units % unitsPerOne = 0 := by
      unfold isIntegral at integral
      rw [Bool.and_eq_true, decide_eq_true_eq] at integral
      exact integral.2
    apply nearestPattern_exact (Decimal.scale_pos 0) below
    rw [wholePart, Nat.div_mul_cancel (Nat.dvd_of_mod_eq_zero whole)]
    exact (Nat.one_mul _).symm
  · exact shortestFrom_reads_back below rfl 1073 1 rfl

/-! ### Numbers that were read -/

section Nearest

variable (numerator denominator : Nat)

theorem nearest_bits :
    (nearest numerator denominator).bits.toNat = nearestPattern numerator denominator ∧
      nearestPattern numerator denominator < 1 <<< 63 := by
  have bound : nearestPattern numerator denominator ≤ infinitePattern := Nat.min_le_right _ _
  have fits : infinitePattern < 1 <<< 63 := by decide
  have wide : 1 <<< 63 < UInt64.size := by decide
  constructor
  · exact UInt64.toNat_ofNat_of_lt' (by omega)
  · omega

theorem nearest_pattern :
    (nearest numerator denominator).pattern = nearestPattern numerator denominator := by
  obtain ⟨same, small⟩ := nearest_bits numerator denominator
  rw [pattern, same, Nat.mod_eq_of_lt small]

theorem nearest_isNegative : (nearest numerator denominator).isNegative = false := by
  obtain ⟨same, small⟩ := nearest_bits numerator denominator
  rw [isNegative, same, decide_eq_false_iff_not]
  omega

theorem nearest_signText : (nearest numerator denominator).signText = [] := by
  rw [signText, nearest_isNegative, Bool.false_and]
  rfl

end Nearest

theorem text_of_finite {number : Binary64} (finite : number.isFinite = true)
    (unsigned : number.signText = []) :
    number.text = String.ofList number.shortestDecimal.text := by
  have below : number.pattern < infinitePattern := of_decide_eq_true finite
  have isNumber : number.isNaN = false := decide_eq_false (by omega)
  have bounded : number.isInfinite = false := decide_eq_false (by omega)
  rw [text, isNumber, bounded, unsigned]
  rfl

end Binary64

namespace Decimal

/-- A number that was read is written as a decimal that is read as the same number. -/
theorem shortestDecimal_toBinary64 {decimal : Decimal}
    (finite : decimal.toBinary64.isFinite = true) :
    decimal.toBinary64.shortestDecimal.toBinary64 = decimal.toBinary64 := by
  have same := Binary64.shortestDecimal_reads_back finite
  rw [toBinary64, Binary64.nearest_pattern] at same
  exact congrArg (fun bits => Binary64.mk (UInt64.ofNat bits)) same

/-! ### Digits -/

theorem toDigits_digits (value : Nat) : ∀ c ∈ Nat.toDigits 10 value, isDigit c = true := by
  intro c member
  exact Nat.isDigit_of_mem_toDigits (by decide) (by decide) member

theorem paddedDigits_digits (width value : Nat) :
    ∀ c ∈ paddedDigits width value, isDigit c = true := by
  intro c member
  rcases List.mem_append.mp member with padding | digit
  · rw [List.eq_of_mem_replicate padding]
    rfl
  · exact toDigits_digits value c digit

theorem paddedDigits_length {width value : Nat} (positive : 0 < width)
    (small : value < scale width) : (paddedDigits width value).length = width := by
  have fits := (Nat.length_toDigits_le_iff (by decide) positive).mpr small
  rw [paddedDigits, List.length_append, List.length_replicate, Nat.sub_add_cancel fits]

theorem digitsValue_append (high : Nat) (digits further : List Char) :
    digitsValue high (digits ++ further) = digitsValue (digitsValue high digits) further :=
  List.foldl_append

theorem digitsValue_eq (high : Nat) (digits : List Char) :
    digitsValue high digits = scale digits.length * high + digitsValue 0 digits :=
  Nat.ofDigitChars_eq_ofDigitChars_zero

theorem digitsValue_toDigits (value : Nat) : digitsValue 0 (Nat.toDigits 10 value) = value :=
  Nat.ofDigitChars_ten_toDigits

theorem digitsValue_zeros (count : Nat) : digitsValue 0 (List.replicate count '0') = 0 := by
  induction count with
  | zero => rfl
  | succ count inductionHypothesis => exact inductionHypothesis

theorem digitsValue_padded {width value : Nat} (positive : 0 < width)
    (small : value < scale width) (high : Nat) :
    digitsValue high (paddedDigits width value) = scale width * high + value := by
  rw [digitsValue_eq, paddedDigits_length positive small, paddedDigits, digitsValue_append,
    digitsValue_zeros, digitsValue_toDigits]

/-! ### Reading a decimal -/

theorem span_digits {digits rest : List Char} (all : ∀ c ∈ digits, isDigit c = true)
    (ends : rest.takeWhile isDigit = []) (whole : rest.dropWhile isDigit = rest) :
    (digits ++ rest).takeWhile isDigit = digits ∧ (digits ++ rest).dropWhile isDigit = rest := by
  constructor
  · rw [List.takeWhile_append_of_pos all, ends, List.append_nil]
  · rw [List.dropWhile_append_of_pos all, whole]

theorem read?_whole {digits : List Char} (nonempty : digits ≠ [])
    (all : ∀ c ∈ digits, isDigit c = true) :
    read? digits = some ⟨digitsValue 0 digits, 0⟩ := by
  have split := span_digits all List.takeWhile_nil List.dropWhile_nil
  rw [List.append_nil] at split
  simp only [read?, split, List.isEmpty_eq_false_iff.mpr nonempty, Bool.false_eq_true, if_false]

theorem read?_fraction {digits further : List Char} (nonempty : digits ≠ [])
    (all : ∀ c ∈ digits, isDigit c = true) (allFurther : ∀ c ∈ further, isDigit c = true) :
    read? (digits ++ '.' :: further) =
      some ⟨digitsValue (digitsValue 0 digits) further, further.length⟩ := by
  have point : ¬ isDigit '.' = true := by decide
  have ends : ('.' :: further).takeWhile isDigit = [] := List.takeWhile_cons_of_neg point
  have split := span_digits all ends (List.dropWhile_cons_of_neg point)
  have onlyDigits : further.all isDigit = true := List.all_eq_true.mpr allFurther
  simp only [read?, split, List.isEmpty_eq_false_iff.mpr nonempty, onlyDigits, decide_true,
    Bool.and_self, if_true, Bool.false_eq_true, if_false]

/-- The digits of a decimal are read as that decimal, with all its places. -/
theorem read?_text (decimal : Decimal) : read? decimal.text = some decimal := by
  obtain ⟨coefficient, places⟩ := decimal
  unfold text
  split
  · rename_i none
    have isWhole : places = 0 := none
    subst isWhole
    rw [read?_whole Nat.toDigits_ne_nil (toDigits_digits _), digitsValue_toDigits]
    exact congrArg (fun value => some (Decimal.mk value 0)) (Nat.div_one coefficient)
  · rename_i some
    have positive : 0 < places := Nat.pos_of_ne_zero some
    have small : coefficient % scale places < scale places := Nat.mod_lt _ (scale_pos places)
    rw [read?_fraction Nat.toDigits_ne_nil (toDigits_digits _) (paddedDigits_digits _ _),
      digitsValue_toDigits, digitsValue_padded positive small, paddedDigits_length positive small,
      Nat.div_add_mod]

end Decimal

end ExprWasm.Number
