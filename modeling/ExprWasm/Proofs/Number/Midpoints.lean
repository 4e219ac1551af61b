import Mathlib.Order.Monotone.Basic
import Mathlib.Tactic.Ring
import ExprWasm.Proofs.Number.ReadBack

/-! Rounding by midpoints.

The magnitudes of successive patterns grow, and between any two neighbours lies a midpoint. A
quotient is rounded to the pattern whose two midpoints it lies between; a midpoint itself belongs to
the even one of its two patterns. From the midpoint after the largest number on, a quotient is
rounded to infinity. -/

set_option autoImplicit false

namespace ExprWasm.Number.Binary64

/-! ### Magnitudes in order -/

theorem fractionCount_pos : 0 < fractionCount := by decide

theorem fractionCount_even : fractionCount % 2 = 0 := by decide

theorem patternUnits_split {fraction : Nat} (below : fraction < fractionCount) (exponent : Nat) :
    patternUnits (fractionCount * exponent + fraction) =
      if exponent = 0 then fraction else (fractionCount + fraction) <<< (exponent - 1) := by
  have quotient : (fractionCount * exponent + fraction) / fractionCount = exponent := by
    rw [Nat.mul_add_div fractionCount_pos, Nat.div_eq_of_lt below, Nat.add_zero]
  have remainder : (fractionCount * exponent + fraction) % fractionCount = fraction := by
    rw [Nat.mul_add_mod, Nat.mod_eq_of_lt below]
  simp only [patternUnits, quotient, remainder]

/-- A significand of 53 places at an exponent; one with fewer places only at the least exponent. -/
structure Significant (exponent significand : Nat) : Prop where
  high : significand ≤ 2 * fractionCount
  low : exponent = 0 ∨ fractionCount ≤ significand

/-- The pattern of a significand; the next power of two has the pattern after the last of them. -/
theorem patternUnits_compose {exponent significand : Nat}
    (significant : Significant exponent significand) :
    patternUnits (fractionCount * exponent + significand) = significand * 2 ^ exponent := by
  obtain ⟨high, low⟩ := significant
  by_cases small : significand < fractionCount
  · have least : exponent = 0 := low.resolve_right (Nat.not_le.mpr small)
    rw [patternUnits_split small, if_pos least, least, Nat.pow_zero, Nat.mul_one]
  · obtain ⟨fraction, rfl⟩ := Nat.exists_eq_add_of_le (Nat.le_of_not_lt small)
    have carried : fractionCount * exponent + (fractionCount + fraction) =
        fractionCount * (exponent + 1) + fraction := by
      rw [Nat.mul_add, Nat.mul_one, Nat.add_assoc]
    rw [carried]
    by_cases full : fraction = fractionCount
    · have next : fractionCount * (exponent + 1) + fraction =
          fractionCount * (exponent + 2) + 0 := by
        rw [full, Nat.mul_add _ exponent 2, Nat.mul_add _ exponent 1]
        omega
      rw [next, patternUnits_split fractionCount_pos, if_neg (Nat.succ_ne_zero _), full,
        Nat.add_zero, Nat.shiftLeft_eq]
      change fractionCount * 2 ^ (exponent + 1) = _
      ring
    · have below : fraction < fractionCount := by omega
      rw [patternUnits_split below, if_neg (Nat.succ_ne_zero _), Nat.add_sub_cancel,
        Nat.shiftLeft_eq]

theorem exists_significand (pattern : Nat) :
    ∃ exponent significand, pattern = fractionCount * exponent + significand ∧
      significand < 2 * fractionCount ∧ Significant exponent significand := by
  have split := Nat.div_add_mod pattern fractionCount
  have below : pattern % fractionCount < fractionCount := Nat.mod_lt _ fractionCount_pos
  generalize pattern / fractionCount = exponent at split
  generalize pattern % fractionCount = fraction at split below
  cases exponent with
  | zero =>
      refine ⟨0, fraction, split.symm, by omega, ?_, Or.inl rfl⟩
      omega
  | succ exponent =>
      refine ⟨exponent, fractionCount + fraction, ?_, by omega, ?_, Or.inr (Nat.le_add_right _ _)⟩
      · rw [← split, Nat.mul_add, Nat.mul_one, Nat.add_assoc]
      · omega

theorem patternUnits_lt_succ (pattern : Nat) :
    patternUnits pattern < patternUnits (pattern + 1) := by
  obtain ⟨exponent, significand, rfl, below, significant⟩ := exists_significand pattern
  have next : Significant exponent (significand + 1) :=
    ⟨below, significant.low.imp_right Nat.le_succ_of_le⟩
  rw [Nat.add_assoc, patternUnits_compose significant, patternUnits_compose next]
  exact Nat.mul_lt_mul_of_pos_right (Nat.lt_succ_self _) (Nat.two_pow_pos _)

theorem patternUnits_strictMono : StrictMono patternUnits :=
  strictMono_nat_of_lt_succ patternUnits_lt_succ

/-- Twice the midpoint between the magnitude of a pattern and the next. -/
def midpoint (pattern : Nat) : Nat :=
  patternUnits pattern + patternUnits (pattern + 1)

theorem midpoint_strictMono : StrictMono midpoint := by
  intro lower upper less
  exact Nat.add_lt_add (patternUnits_strictMono less) (patternUnits_strictMono (by omega))

/-- Every significand has a pattern at every exponent, also one with fewer than 53 places. -/
theorem exists_pattern
    (exponent : Nat) {significand : Nat} (high : significand ≤ 2 * fractionCount) :
    ∃ pattern ≤ fractionCount * exponent + 2 * fractionCount,
      patternUnits pattern = significand * 2 ^ exponent := by
  induction exponent generalizing significand with
  | zero =>
      have least := @patternUnits_compose 0 _ ⟨high, Or.inl rfl⟩
      exact ⟨_, Nat.add_le_add_left high _, least⟩
  | succ exponent inductionHypothesis =>
      by_cases low : fractionCount ≤ significand
      · have whole := @patternUnits_compose (exponent + 1) _ ⟨high, Or.inr low⟩
        exact ⟨_, Nat.add_le_add_left high _, whole⟩
      · -- The significand moves up by one place, and the exponent down.
        obtain ⟨pattern, bound, same⟩ :=
          inductionHypothesis (show 2 * significand ≤ 2 * fractionCount by omega)
        refine ⟨pattern, Nat.le_trans bound ?_, ?_⟩
        · exact Nat.add_le_add_right (Nat.mul_le_mul_left _ (Nat.le_succ _)) _
        · rw [same]
          ring

theorem exists_whole_pattern {whole places : Nat} (one : unitsPerOne = 1 <<< places)
    (small : whole ≤ 2 * fractionCount) :
    ∃ pattern ≤ fractionCount * places + 2 * fractionCount,
      patternUnits pattern = whole * unitsPerOne := by
  rw [one, Nat.one_shiftLeft]
  exact exists_pattern places small

/-! ### Between midpoints -/

/-- The quotient, counted in units, lies between the midpoints on both sides of a pattern, and on
one of them only if the pattern is even. -/
structure Rounds (units denominator pattern : Nat) : Prop where
  above : ∀ lower, lower + 1 = pattern → midpoint lower * denominator ≤ 2 * units
  aboveTie : ∀ lower, lower + 1 = pattern → midpoint lower * denominator = 2 * units →
    pattern % 2 = 0
  below : 2 * units ≤ midpoint pattern * denominator
  belowTie : 2 * units = midpoint pattern * denominator → pattern % 2 = 0

/-- Rounding goes down to the quotient or up to the next number, whichever is nearer. -/
theorem roundQuotient_cases (numerator denominator : Nat) :
    let quotient := numerator / denominator
    let remainder := numerator % denominator
    let rounded := roundQuotient numerator denominator
    (rounded = quotient ∧ 2 * remainder ≤ denominator ∧
        (2 * remainder = denominator → rounded % 2 = 0)) ∨
      (rounded = quotient + 1 ∧ denominator ≤ 2 * remainder ∧
        (denominator = 2 * remainder → rounded % 2 = 0)) := by
  unfold roundQuotient
  simp only
  split
  · omega
  · split
    · omega
    · split
      · omega
      · omega

section Denominator

variable {denominator : Nat} (positive : 0 < denominator)

include positive

/-- What rounding adds or takes away is at most half of a step, and half of one only to reach an
even number. -/
theorem roundQuotient_bounds (numerator : Nat) :
    let reached := denominator * roundQuotient numerator denominator
    2 * numerator ≤ 2 * reached + denominator ∧ 2 * reached ≤ 2 * numerator + denominator ∧
      (2 * numerator = 2 * reached + denominator ∨ 2 * reached = 2 * numerator + denominator →
        roundQuotient numerator denominator % 2 = 0) := by
  have split := Nat.div_add_mod numerator denominator
  have small := Nat.mod_lt numerator positive
  have cases := roundQuotient_cases numerator denominator
  simp only at cases ⊢
  generalize roundQuotient numerator denominator = rounded at cases ⊢
  generalize numerator % denominator = remainder at split small cases
  rcases cases with ⟨same, least, tie⟩ | ⟨same, least, tie⟩
  · rw [← same] at split
    refine ⟨by omega, by omega, fun equal => tie (by omega)⟩
  · have next : denominator * rounded = denominator * (numerator / denominator) + denominator := by
      rw [same, Nat.mul_add, Nat.mul_one]
    refine ⟨by omega, by omega, fun equal => tie (by omega)⟩

/-- The exponent leaves a quotient of 53 binary places; a smaller quotient has the least exponent.
-/
theorem exponent_bounds (units : Nat) :
    let exponent := (units / denominator).log2 - 52
    units < 2 * fractionCount * (denominator * 2 ^ exponent) ∧
      (exponent = 0 ∨ fractionCount * (denominator * 2 ^ exponent) ≤ units) := by
  have upper := Nat.lt_mul_div_succ units positive
  have lower := Nat.mul_div_le units denominator
  intro exponent
  constructor
  · have bits : units / denominator < 2 ^ (53 + exponent) := by
      apply Nat.lt_of_lt_of_le Nat.lt_log2_self
      exact Nat.pow_le_pow_right (by decide) (by omega)
    have places : 2 ^ (53 + exponent) = 2 * fractionCount * 2 ^ exponent := by
      rw [Nat.pow_add]
      rfl
    calc units < denominator * (units / denominator + 1) := upper
      _ ≤ denominator * 2 ^ (53 + exponent) := Nat.mul_le_mul_left _ bits
      _ = 2 * fractionCount * (denominator * 2 ^ exponent) := by
        rw [places]
        ring
  · by_cases least : exponent = 0
    · exact Or.inl least
    · right
      have whole : (units / denominator).log2 = 52 + exponent := by omega
      have nonzero : units / denominator ≠ 0 := by
        intro zero
        rw [zero, Nat.log2_zero] at whole
        omega
      have bits : 2 ^ (52 + exponent) ≤ units / denominator := by
        rw [← whole]
        exact Nat.log2_self_le nonzero
      have places : 2 ^ (52 + exponent) = fractionCount * 2 ^ exponent := by
        rw [Nat.pow_add]
        rfl
      calc fractionCount * (denominator * 2 ^ exponent)
          = denominator * 2 ^ (52 + exponent) := by
            rw [places]
            ring
        _ ≤ denominator * (units / denominator) := Nat.mul_le_mul_left _ bits
        _ ≤ units := lower

end Denominator

/-! ### Rounding to a significand -/

section Significand

variable {exponent significand : Nat}

theorem significand_parity (exponent significand : Nat) :
    (fractionCount * exponent + significand) % 2 = significand % 2 := by
  rw [Nat.add_mod, Nat.mul_mod, fractionCount_even, Nat.zero_mul, Nat.zero_mod, Nat.zero_add,
    Nat.mod_mod]

/-- The next pattern is at least one step of the last place away. -/
theorem Significant.le_next (significant : Significant exponent significand) :
    (significand + 1) * 2 ^ exponent ≤
      patternUnits (fractionCount * exponent + significand + 1) := by
  by_cases below : significand < 2 * fractionCount
  · have next : Significant exponent (significand + 1) :=
      ⟨below, significant.low.imp_right Nat.le_succ_of_le⟩
    rw [Nat.add_assoc, patternUnits_compose next]
  · -- The significand is a power of two with the next exponent, where a step is twice as long.
    have full : significand = 2 * fractionCount := Nat.le_antisymm significant.high (by omega)
    have carried : fractionCount * exponent + significand + 1 =
        fractionCount * (exponent + 1) + (fractionCount + 1) := by
      rw [full]
      ring
    have next : Significant (exponent + 1) (fractionCount + 1) :=
      ⟨by have := fractionCount_pos; omega, Or.inr (Nat.le_succ _)⟩
    rw [carried, patternUnits_compose next, full, Nat.pow_succ, Nat.mul_comm _ 2,
      ← Nat.mul_assoc]
    exact Nat.mul_le_mul_right _ (by omega)

/-- The pattern before is one step away, unless the significand is the least of its exponent. -/
theorem Significant.previous (significant : Significant exponent significand) {lower : Nat}
    (before : lower + 1 = fractionCount * exponent + significand) :
    patternUnits lower + 2 ^ exponent = significand * 2 ^ exponent ∨
      0 < exponent ∧ significand = fractionCount ∧
        patternUnits lower < fractionCount * 2 ^ exponent := by
  by_cases least : 0 < exponent ∧ significand = fractionCount
  · right
    refine ⟨least.1, least.2, ?_⟩
    have less := patternUnits_lt_succ lower
    rw [before, patternUnits_compose significant, least.2] at less
    exact less
  · left
    obtain ⟨smaller, rfl⟩ : ∃ smaller, significand = smaller + 1 := by
      apply Nat.exists_eq_add_one.mpr
      have low := significant.low
      have positive := fractionCount_pos
      rcases low with rfl | low
      · omega
      · omega
    have earlier : Significant exponent smaller := by
      refine ⟨Nat.le_of_succ_le significant.high, ?_⟩
      have low := significant.low
      omega
    have same : lower = fractionCount * exponent + smaller := by omega
    rw [same, patternUnits_compose earlier]
    ring

/-- A significand that is at most half a step away from the quotient, and half a step only if it is
even, is rounded to. -/
theorem Significant.rounds (significant : Significant exponent significand)
    {units denominator : Nat} (positive : 0 < denominator)
    (enough : exponent = 0 ∨ fractionCount * (denominator * 2 ^ exponent) ≤ units)
    (bounds : let reached := denominator * 2 ^ exponent * significand
      2 * units ≤ 2 * reached + denominator * 2 ^ exponent ∧
        2 * reached ≤ 2 * units + denominator * 2 ^ exponent ∧
        (2 * units = 2 * reached + denominator * 2 ^ exponent ∨
          2 * reached = 2 * units + denominator * 2 ^ exponent → significand % 2 = 0)) :
    Rounds units denominator (fractionCount * exponent + significand) := by
  obtain ⟨notBelow, notAbove, tie⟩ := bounds
  rw [← significand_parity exponent significand] at tie
  have here := patternUnits_compose significant
  have reached : significand * 2 ^ exponent * denominator =
      denominator * 2 ^ exponent * significand := by ring
  have under {lower : Nat} (before : lower + 1 = fractionCount * exponent + significand) :
      midpoint lower * denominator ≤ 2 * units ∧
        (midpoint lower * denominator = 2 * units →
          (fractionCount * exponent + significand) % 2 = 0) := by
    have sum : midpoint lower * denominator =
        patternUnits lower * denominator + denominator * 2 ^ exponent * significand := by
      rw [midpoint, before, here, Nat.add_mul, reached]
    rcases significant.previous before with stepped | ⟨some, least, less⟩
    · have product := congrArg (· * denominator) stepped
      simp only [Nat.add_mul, reached, Nat.mul_comm (2 ^ exponent) denominator] at product
      refine ⟨by omega, fun equal => tie (Or.inr (by omega))⟩
    · have product := Nat.mul_lt_mul_of_pos_right less positive
      have known := enough.resolve_left (Nat.ne_of_gt some)
      rw [least, Nat.mul_comm _ fractionCount] at sum
      rw [Nat.mul_assoc, Nat.mul_comm (2 ^ exponent)] at product
      omega
  have next : 2 * (denominator * 2 ^ exponent * significand) + denominator * 2 ^ exponent ≤
      midpoint (fractionCount * exponent + significand) * denominator := by
    have product := Nat.mul_le_mul_right denominator significant.le_next
    rw [midpoint, here, Nat.add_mul, reached]
    rw [Nat.add_mul, Nat.one_mul, Nat.add_mul, reached, Nat.mul_comm (2 ^ exponent)] at product
    omega
  constructor
  case above => exact fun lower before => (under before).1
  case aboveTie => exact fun lower before => (under before).2
  case below => omega
  case belowTie => exact fun equal => tie (Or.inl (by omega))

end Significand

section Quotient

variable {denominator : Nat} (positive : 0 < denominator) (units : Nat)

include positive

theorem significant_of_bounds {exponent significand : Nat}
    (upper : units < 2 * fractionCount * (denominator * 2 ^ exponent))
    (enough : exponent = 0 ∨ fractionCount * (denominator * 2 ^ exponent) ≤ units)
    (notBelow : 2 * units ≤ 2 * (denominator * 2 ^ exponent * significand) +
      denominator * 2 ^ exponent)
    (notAbove : 2 * (denominator * 2 ^ exponent * significand) ≤ 2 * units +
      denominator * 2 ^ exponent) : Significant exponent significand := by
  have someStep : 0 < denominator * 2 ^ exponent := Nat.mul_pos positive (Nat.two_pow_pos _)
  generalize denominator * 2 ^ exponent = step at *
  constructor
  · by_contra large
    have more : 2 * fractionCount + 1 ≤ significand := by omega
    have reached := Nat.mul_le_mul_left step more
    rw [Nat.mul_add, Nat.mul_one, Nat.mul_comm _ (2 * fractionCount)] at reached
    omega
  · refine enough.imp_right fun enough => ?_
    by_contra small
    have less : significand + 1 ≤ fractionCount := by omega
    have reached := Nat.mul_le_mul_left step less
    rw [Nat.mul_add, Nat.mul_one, Nat.mul_comm _ fractionCount] at reached
    omega

/-- As long as there are patterns, a quotient is rounded to the one it lies next to. -/
theorem rounds_significand :
    let exponent := (units / denominator).log2 - 52
    Rounds units denominator
      (fractionCount * exponent + roundQuotient units (denominator <<< exponent)) := by
  intro exponent
  obtain ⟨upper, enough⟩ := exponent_bounds positive units
  have step : 0 < denominator * 2 ^ exponent := Nat.mul_pos positive (Nat.two_pow_pos _)
  have bounds := roundQuotient_bounds step units
  rw [Nat.shiftLeft_eq]
  have significant := significant_of_bounds positive units upper enough bounds.1 bounds.2.1
  exact significant.rounds positive enough bounds

/-! ### The end of the finite patterns -/

def largestPattern : Nat := infinitePattern - 1

/-- The midpoint after the largest number divides the quotients that are rounded to a finite pattern
from those that are not; the midpoint itself is rounded up, because the largest pattern is odd. -/
theorem Rounds.end_cases {pattern : Nat} (rounds : Rounds units denominator pattern) :
    (pattern < infinitePattern ∧ 2 * units < midpoint largestPattern * denominator) ∨
      (infinitePattern ≤ pattern ∧ midpoint largestPattern * denominator ≤ 2 * units) := by
  have last : largestPattern + 1 = infinitePattern := by decide
  have odd : largestPattern % 2 = 1 := by decide
  by_cases finite : pattern < infinitePattern
  · left
    refine ⟨finite, Nat.lt_of_le_of_ne ?_ ?_⟩
    · exact Nat.le_trans rounds.below
        (Nat.mul_le_mul_right _ (midpoint_strictMono.monotone (by omega)))
    · intro equal
      by_cases same : pattern = largestPattern
      · rw [← same] at equal odd
        have even := rounds.belowTie equal
        omega
      · have less := midpoint_strictMono (show pattern < largestPattern by omega)
        have product := Nat.mul_lt_mul_of_pos_right less positive
        have below := rounds.below
        omega
  · right
    refine ⟨Nat.le_of_not_lt finite, ?_⟩
    have before : pattern - 1 + 1 = pattern := by omega
    calc midpoint largestPattern * denominator
        ≤ midpoint (pattern - 1) * denominator :=
          Nat.mul_le_mul_right _ (midpoint_strictMono.monotone (by omega))
      _ ≤ 2 * units := rounds.above _ before

theorem nearestPattern_cases (numerator : Nat) :
    let units := numerator * unitsPerOne
    (nearestPattern numerator denominator < infinitePattern ∧
        2 * units < midpoint largestPattern * denominator ∧
        Rounds units denominator (nearestPattern numerator denominator)) ∨
      (nearestPattern numerator denominator = infinitePattern ∧
        midpoint largestPattern * denominator ≤ 2 * units) := by
  have rounds := rounds_significand positive (numerator * unitsPerOne)
  unfold nearestPattern
  simp only at rounds ⊢
  rw [Nat.mul_comm _ fractionCount]
  rcases rounds.end_cases positive _ with ⟨finite, less⟩ | ⟨infinite, more⟩
  · left
    rw [Nat.min_eq_left (Nat.le_of_lt finite)]
    exact ⟨finite, less, rounds⟩
  · right
    exact ⟨Nat.min_eq_right infinite, more⟩

end Quotient

/-- The midpoint before a power of two. -/
theorem midpoint_before_power (exponent : Nat) :
    midpoint (fractionCount * exponent + (2 * fractionCount - 1)) =
      (4 * fractionCount - 1) * 2 ^ exponent := by
  have next : fractionCount * exponent + (2 * fractionCount - 1) + 1 =
      fractionCount * exponent + 2 * fractionCount := by
    rw [Nat.add_assoc]
    rfl
  have last : Significant exponent (2 * fractionCount - 1) := ⟨by decide, Or.inr (by decide)⟩
  have power : Significant exponent (2 * fractionCount) := ⟨by decide, Or.inr (by decide)⟩
  have sum : 2 * fractionCount - 1 + 2 * fractionCount = 4 * fractionCount - 1 := by decide
  rw [midpoint, next, patternUnits_compose last, patternUnits_compose power, ← Nat.add_mul, sum]

theorem midpoint_largest : midpoint largestPattern = (4 * fractionCount - 1) * 2 ^ 2045 :=
  midpoint_before_power 2045

end ExprWasm.Number.Binary64
