import ExprWasm.Proofs.Number.Nearest

/-! Numerals and the rational numbers they denote.

A numeral is digits, and a point with further digits if it has one. Each digit counts as many tens,
or tenths, as its place says. Main statements: a numeral is read as the number nearest to what it
denotes (`Numeral.literal_roundsTo`), two numerals that denote the same are read as the same number
(`Numeral.literal_of_value_eq`), and larger ones not as smaller numbers. -/

set_option autoImplicit false

namespace ExprWasm.Number

structure Numeral where
  whole : List Char
  fraction : Option (List Char)
  nonempty : whole ≠ []
  digits : ∀ c ∈ whole, Decimal.isDigit c = true
  furtherDigits : ∀ c ∈ fraction.getD [], Decimal.isDigit c = true

namespace Numeral

def positional : List Char → Nat
  | [] => 0
  | c :: rest => (c.toNat - 48) * 10 ^ rest.length + positional rest

def text (numeral : Numeral) : List Char :=
  match numeral.fraction with
  | none => numeral.whole
  | some further => numeral.whole ++ '.' :: further

def value (numeral : Numeral) : ℚ :=
  let further := numeral.fraction.getD []
  positional numeral.whole + positional further / 10 ^ further.length

def padded (numeral : Numeral) (leading trailing : Nat) : Numeral where
  whole := List.replicate leading '0' ++ numeral.whole
  fraction := numeral.fraction.map (· ++ List.replicate trailing '0')
  nonempty := List.append_ne_nil_of_right_ne_nil _ numeral.nonempty
  digits := by
    intro c member
    rcases List.mem_append.mp member with zero | digit
    · rw [List.eq_of_mem_replicate zero]
      rfl
    · exact numeral.digits c digit
  furtherDigits := by
    have further := numeral.furtherDigits
    intro c member
    cases same : numeral.fraction with
    | none =>
        rw [same] at member
        cases member
    | some digits =>
        rw [same] at member further
        rcases List.mem_append.mp member with digit | zero
        · exact further c digit
        · rw [List.eq_of_mem_replicate zero]
          rfl

def decimal (numeral : Numeral) : Decimal :=
  let further := numeral.fraction.getD []
  ⟨Decimal.digitsValue (Decimal.digitsValue 0 numeral.whole) further, further.length⟩

def literal (numeral : Numeral) : Binary64 :=
  numeral.decimal.toBinary64

theorem read?_text (numeral : Numeral) : Decimal.read? numeral.text = some numeral.decimal := by
  obtain ⟨whole, fraction, nonempty, digits, furtherDigits⟩ := numeral
  cases fraction with
  | none => exact Decimal.read?_whole nonempty digits
  | some further => exact Decimal.read?_fraction nonempty digits furtherDigits

/-! ### Values -/

theorem digitsValue_eq_positional (digits : List Char) :
    Decimal.digitsValue 0 digits = positional digits := by
  induction digits with
  | nil => rfl
  | cons c rest inductionHypothesis =>
      have first : Decimal.digitsValue 0 (c :: rest) = Decimal.digitsValue (c.toNat - 48) rest := by
        rw [Decimal.digitsValue, List.foldl_cons, Nat.mul_zero, Nat.zero_add]
        rfl
      rw [first, Decimal.digitsValue_eq, inductionHypothesis, positional, Nat.mul_comm]
      rfl

theorem scale_cast (places : Nat) : ((Decimal.scale places : Nat) : ℚ) = 10 ^ places := by
  have power : Decimal.scale places = 10 ^ places := rfl
  rw [power, Nat.cast_pow, Nat.cast_ofNat]

theorem value_eq_decimal (numeral : Numeral) :
    numeral.value = numeral.decimal.coefficient / (Decimal.scale numeral.decimal.places : Nat) := by
  unfold value decimal
  generalize numeral.fraction.getD [] = further
  simp only
  have positive : (10 : ℚ) ^ further.length ≠ 0 := pow_ne_zero _ (by decide)
  rw [Decimal.digitsValue_eq, digitsValue_eq_positional, digitsValue_eq_positional, Nat.cast_add,
    Nat.cast_mul, scale_cast, add_div, mul_div_cancel_left₀ _ positive]

theorem value_nonneg (numeral : Numeral) : 0 ≤ numeral.value := by
  unfold value
  positivity

theorem positional_append (digits further : List Char) :
    positional (digits ++ further) =
      positional digits * 10 ^ further.length + positional further := by
  induction digits with
  | nil => rw [List.nil_append, positional, Nat.zero_mul, Nat.zero_add]
  | cons c rest inductionHypothesis =>
      rw [List.cons_append, positional, positional, inductionHypothesis, List.length_append]
      ring

theorem positional_zeros (count : Nat) : positional (List.replicate count '0') = 0 := by
  rw [← digitsValue_eq_positional, Decimal.digitsValue_zeros]

theorem padded_value (numeral : Numeral) (leading trailing : Nat) :
    (numeral.padded leading trailing).value = numeral.value := by
  simp only [value, padded]
  cases numeral.fraction with
  | none =>
      simp only [Option.map_none, positional_append, positional_zeros, Nat.zero_mul, Nat.zero_add]
  | some further =>
      have positive : (10 : ℚ) ^ trailing ≠ 0 := pow_ne_zero _ (by decide)
      simp only [Option.map_some, Option.getD_some, positional_append, positional_zeros, Nat.zero_mul,
        Nat.zero_add, Nat.add_zero, List.length_append, List.length_replicate]
      rw [Nat.cast_mul, Nat.cast_pow, Nat.cast_ofNat, pow_add, mul_div_mul_right _ _ positive]

/-! ### What is read -/

theorem literal_roundsTo (numeral : Numeral) : Binary64.RoundsTo numeral.value numeral.literal := by
  rw [value_eq_decimal]
  exact Binary64.nearest_roundsTo _ (Decimal.scale_pos _)

theorem literal_isNegative (numeral : Numeral) : numeral.literal.isNegative = false :=
  Binary64.nearest_isNegative _ _

theorem literal_isInfinite_iff (numeral : Numeral) :
    numeral.literal.isInfinite = true ↔ Binary64.limit ≤ numeral.value := by
  rw [numeral.literal_roundsTo.isInfinite_iff, abs_of_nonneg numeral.value_nonneg]

/-- Numerals that denote the same number are read as the same number. -/
theorem literal_of_value_eq {numeral other : Numeral} (same : other.value = numeral.value) :
    other.literal = numeral.literal := by
  have otherRounds := other.literal_roundsTo
  rw [same] at otherRounds
  apply otherRounds.unique numeral.literal_roundsTo
  rw [literal_isNegative, literal_isNegative]

theorem literal_value_le {numeral other : Numeral} (order : numeral.value ≤ other.value)
    (finite : other.literal.isFinite = true) :
    numeral.literal.isFinite = true ∧ numeral.literal.value ≤ other.literal.value :=
  numeral.literal_roundsTo.value_le other.literal_roundsTo numeral.value_nonneg order finite

end Numeral

end ExprWasm.Number
