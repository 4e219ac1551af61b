import Mathlib.Algebra.Order.Field.Rat
import Mathlib.Algebra.Order.Ring.Abs
import Mathlib.Tactic.FieldSimp
import Mathlib.Tactic.Linarith
import Mathlib.Tactic.Positivity
import ExprWasm.Proofs.Number.Midpoints

/-! Correct rounding of rational numbers.

The value of a finite number is read off its sign, exponent and fraction. A number is nearest to a
rational number if no finite number is nearer, and if it is even where another one is equally near.
This determines the value, so that rounding follows the order of the rational numbers. Main
statement: the function `nearest` rounds correctly, to infinity from 2^1024 - 2^970 on. -/

set_option autoImplicit false

namespace ExprWasm.Number.Binary64

/-! ### Values -/

def exponentBits (number : Binary64) : Nat :=
  number.bits.toNat / 2 ^ 52 % 2 ^ 11

def fractionBits (number : Binary64) : Nat :=
  number.bits.toNat % 2 ^ 52

/-- The value of a finite number. The first binary place is one and is not stored, except in the
numbers with the least exponent, where it is zero. -/
def value (number : Binary64) : ℚ :=
  let sign : ℚ := if number.isNegative then -1 else 1
  let fraction : ℚ := number.fractionBits / 2 ^ 52
  if number.exponentBits = 0 then sign * fraction * 2 ^ (-1022 : ℤ)
  else sign * (1 + fraction) * 2 ^ ((number.exponentBits : ℤ) - 1023)

def magnitude (pattern : Nat) : ℚ :=
  patternUnits pattern / unitsPerOne

theorem shiftLeft_cast (places : Nat) : ((1 <<< places : Nat) : ℚ) = 2 ^ places := by
  rw [Nat.one_shiftLeft, Nat.cast_pow, Nat.cast_ofNat]

theorem unitsPerOne_cast : (unitsPerOne : ℚ) = 2 ^ 1074 :=
  shiftLeft_cast 1074

theorem unitsPerOne_cast_pos : (0 : ℚ) < unitsPerOne := by
  rw [unitsPerOne_cast]
  exact pow_pos two_pos _

/-- A power of two, counted in units. -/
theorem power_div_units {exponent : Nat} {power : ℤ} (same : (exponent : ℤ) - 1074 = power) :
    (2 : ℚ) ^ exponent / unitsPerOne = 2 ^ power := by
  rw [unitsPerOne_cast, ← same, zpow_sub₀ two_ne_zero, zpow_natCast]
  rfl

theorem magnitude_eq (number : Binary64) :
    magnitude number.pattern =
      let fraction : ℚ := number.fractionBits / 2 ^ 52
      if number.exponentBits = 0 then fraction * 2 ^ (-1022 : ℤ)
      else (1 + fraction) * 2 ^ ((number.exponentBits : ℤ) - 1023) := by
  have exponent : number.pattern / fractionCount = number.exponentBits := by
    change number.bits.toNat % 9223372036854775808 / 4503599627370496 =
      number.bits.toNat / 4503599627370496 % 2048
    omega
  have fraction : number.pattern % fractionCount = number.fractionBits := by
    change number.bits.toNat % 9223372036854775808 % 4503599627370496 =
      number.bits.toNat % 4503599627370496
    omega
  have count : (fractionCount : ℚ) = 2 ^ 52 := shiftLeft_cast 52
  simp only [magnitude, patternUnits, exponent, fraction]
  split
  · rw [← power_div_units (show ((52 : Nat) : ℤ) - 1074 = -1022 from rfl)]
    field_simp
  · rename_i some
    obtain ⟨stored, least⟩ := Nat.exists_eq_succ_of_ne_zero some
    have power : ((52 + stored : Nat) : ℤ) - 1074 = ((stored + 1 : Nat) : ℤ) - 1023 := by omega
    rw [least, Nat.succ_eq_add_one, ← power_div_units power, Nat.add_sub_cancel, Nat.shiftLeft_eq,
      pow_add]
    push_cast
    rw [count]
    field_simp

theorem magnitude_strictMono : StrictMono magnitude := by
  intro lower upper less
  have counted : (patternUnits lower : ℚ) < patternUnits upper :=
    Nat.cast_lt.mpr (patternUnits_strictMono less)
  exact div_lt_div_of_pos_right counted unitsPerOne_cast_pos

theorem magnitude_zero : magnitude 0 = 0 := by
  have none : patternUnits 0 = 0 := rfl
  rw [magnitude, none, Nat.cast_zero, zero_div]

/-! ### The order of the numbers -/

/-- The place of a number among all numbers, counted from zero. -/
def rank (number : Binary64) : ℤ :=
  if number.isNegative then -number.pattern else number.pattern

def ofRank (rank : ℤ) : Binary64 :=
  ⟨UInt64.ofNat (if rank < 0 then 1 <<< 63 + rank.natAbs else rank.natAbs)⟩

def rankValue : ℤ → ℚ
  | .ofNat pattern => magnitude pattern
  | .negSucc pattern => -magnitude (pattern + 1)

@[simp] theorem rankValue_natCast (pattern : Nat) : rankValue pattern = magnitude pattern := rfl

@[simp] theorem rankValue_neg (rank : ℤ) : rankValue (-rank) = -rankValue rank := by
  cases rank with
  | ofNat pattern =>
      cases pattern with
      | zero =>
          change magnitude 0 = -magnitude 0
          rw [magnitude_zero, neg_zero]
      | succ pattern => rfl
  | negSucc pattern => exact (neg_neg _).symm

theorem rankValue_lt {lower upper : ℤ} (less : lower < upper) :
    rankValue lower < rankValue upper := by
  refine strictMono_int_of_lt_succ (fun rank => ?_) less
  cases rank with
  | ofNat pattern => exact magnitude_strictMono (Nat.lt_succ_self pattern)
  | negSucc pattern =>
      have next : Int.negSucc pattern + 1 = -(pattern : ℤ) := by omega
      rw [next, rankValue_neg]
      exact neg_lt_neg (magnitude_strictMono (Nat.lt_succ_self pattern))

theorem rankValue_le {lower upper : ℤ} (atMost : lower ≤ upper) :
    rankValue lower ≤ rankValue upper := by
  rcases Int.lt_or_eq_of_le atMost with less | same
  · exact (rankValue_lt less).le
  · rw [same]

theorem rankValue_lt_iff {lower upper : ℤ} : rankValue lower < rankValue upper ↔ lower < upper := by
  refine ⟨fun less => ?_, rankValue_lt⟩
  by_contra notLess
  exact absurd less (not_lt.mpr (rankValue_le (Int.not_lt.mp notLess)))

theorem rankValue_inj {lower upper : ℤ} (same : rankValue lower = rankValue upper) :
    lower = upper := by
  have notLess := rankValue_lt_iff.not.mp same.not_lt
  have notMore := rankValue_lt_iff.not.mp same.not_gt
  omega

theorem value_eq_rankValue (number : Binary64) : number.value = rankValue number.rank := by
  have same := magnitude_eq number
  unfold value rank
  cases number.isNegative with
  | false =>
      simp only [Bool.false_eq_true, if_false, one_mul, rankValue_natCast]
      exact same.symm
  | true =>
      simp only [if_true, rankValue_neg, rankValue_natCast, same]
      split
      · rw [neg_one_mul, neg_mul]
      · rw [neg_one_mul, neg_mul]

theorem rank_natAbs (number : Binary64) : number.rank.natAbs = number.pattern := by
  unfold rank
  split
  · rw [Int.natAbs_neg, Int.natAbs_natCast]
  · rw [Int.natAbs_natCast]

theorem isFinite_iff_rank {number : Binary64} :
    number.isFinite = true ↔ number.rank.natAbs < infinitePattern := by
  rw [rank_natAbs, isFinite, decide_eq_true_eq]

theorem rank_ofRank {rank : ℤ} (finite : rank.natAbs < infinitePattern) :
    (ofRank rank).rank = rank := by
  have small : infinitePattern < 1 <<< 63 := by decide
  have wide : 1 <<< 63 + 1 <<< 63 = UInt64.size := by decide
  have stored (bits : Nat) (fits : bits < UInt64.size) : (UInt64.ofNat bits).toNat = bits :=
    UInt64.toNat_ofNat_of_lt' fits
  unfold ofRank Binary64.rank isNegative pattern
  split
  · rename_i negative
    rw [stored _ (by omega), decide_eq_true (Nat.le_add_right _ _), if_pos rfl, Nat.add_mod_left,
      Nat.mod_eq_of_lt (by omega)]
    omega
  · rw [stored _ (by omega), decide_eq_false (by omega), Nat.mod_eq_of_lt (by omega)]
    exact Int.natAbs_of_nonneg (by omega)

/-! ### Between two midpoints -/

structure Between (quotient : ℚ) (rank : ℤ) : Prop where
  above : rankValue (rank - 1) + rankValue rank ≤ 2 * quotient
  aboveTie : rankValue (rank - 1) + rankValue rank = 2 * quotient → rank % 2 = 0
  below : 2 * quotient ≤ rankValue rank + rankValue (rank + 1)
  belowTie : 2 * quotient = rankValue rank + rankValue (rank + 1) → rank % 2 = 0

theorem Between.neg {quotient : ℚ} {rank : ℤ} (between : Between quotient rank) :
    Between (-quotient) (-rank) := by
  have lower : rankValue (-rank - 1) = -rankValue (rank + 1) := by
    rw [← rankValue_neg]
    congr 1
    omega
  have upper : rankValue (-rank + 1) = -rankValue (rank - 1) := by
    rw [← rankValue_neg]
    congr 1
    omega
  have parity : -rank % 2 = 0 ↔ rank % 2 = 0 := by omega
  obtain ⟨above, aboveTie, below, belowTie⟩ := between
  constructor
  case above =>
    rw [lower, rankValue_neg]
    linarith
  case aboveTie =>
    rw [lower, rankValue_neg, parity]
    exact fun equal => belowTie (by linarith)
  case below =>
    rw [upper, rankValue_neg]
    linarith
  case belowTie =>
    rw [upper, rankValue_neg, parity]
    exact fun equal => aboveTie (by linarith)

theorem Between.nearest_of_lt {quotient : ℚ} {rank other : ℤ} (between : Between quotient rank)
    (less : other < rank) :
    |rankValue rank - quotient| ≤ |rankValue other - quotient| ∧
      (|rankValue other - quotient| = |rankValue rank - quotient| → rank % 2 = 0) := by
  obtain ⟨above, aboveTie, _, _⟩ := between
  have order := rankValue_lt less
  have bound : rankValue other ≤ rankValue (rank - 1) := rankValue_le (by omega)
  have distance : |rankValue other - quotient| = quotient - rankValue other := by
    rw [abs_of_nonpos (by linarith), neg_sub]
  rw [distance]
  refine ⟨abs_le.mpr ⟨by linarith, by linarith⟩, fun equal => aboveTie ?_⟩
  rcases abs_cases (rankValue rank - quotient) with ⟨positive, _⟩ | ⟨negative, _⟩
  · linarith
  · linarith

/-- No place is nearer than the one between the midpoints, and that one is even if another place is
equally near. -/
theorem Between.nearest {quotient : ℚ} {rank : ℤ} (between : Between quotient rank) (other : ℤ) :
    |rankValue rank - quotient| ≤ |rankValue other - quotient| ∧
      (other ≠ rank → |rankValue other - quotient| = |rankValue rank - quotient| →
        rank % 2 = 0) := by
  rcases Int.lt_trichotomy other rank with less | same | more
  · obtain ⟨bound, tie⟩ := between.nearest_of_lt less
    exact ⟨bound, fun _ => tie⟩
  · rw [same]
    exact ⟨le_refl _, fun different => absurd rfl different⟩
  · obtain ⟨bound, tie⟩ := between.neg.nearest_of_lt (Int.neg_lt_neg more)
    have parity : -rank % 2 = 0 ↔ rank % 2 = 0 := by omega
    simp only [rankValue_neg, neg_sub_neg, abs_sub_comm quotient, parity] at bound tie
    exact ⟨bound, fun _ => tie⟩

/-! ### Correct rounding -/

/-- A finite number that no other one is nearer than, and that is even if another one with a
different value is equally near. -/
structure IsNearest (quotient : ℚ) (number : Binary64) : Prop where
  finite : number.isFinite = true
  least : ∀ other : Binary64, other.isFinite = true →
    |number.value - quotient| ≤ |other.value - quotient|
  even : ∀ other : Binary64, other.isFinite = true → other.value ≠ number.value →
    |other.value - quotient| = |number.value - quotient| → number.pattern % 2 = 0

/-- The largest finite number and half of its last step. -/
def limit : ℚ := 2 ^ 1024 - 2 ^ 970

theorem limit_pos : 0 < limit :=
  sub_pos.mpr (pow_lt_pow_right₀ one_lt_two (by decide))

/-- Rounding to the nearest number, ties to the even one, and to infinity from the limit on. -/
inductive RoundsTo (quotient : ℚ) (number : Binary64) : Prop
  | finite (below : |quotient| < limit) (nearest : IsNearest quotient number)
  | infinite (beyond : limit ≤ |quotient|) (infinite : number.isInfinite = true)
      (sign : number.isNegative = true ↔ quotient < 0)

theorem rank_parity (number : Binary64) : number.rank % 2 = 0 ↔ number.pattern % 2 = 0 := by
  have same := rank_natAbs number
  omega

theorem Between.isNearest {quotient : ℚ} {number : Binary64} (finite : number.isFinite = true)
    (between : Between quotient number.rank) : IsNearest quotient number := by
  constructor
  case finite => exact finite
  case least =>
    intro other _
    rw [value_eq_rankValue, value_eq_rankValue]
    exact (between.nearest other.rank).1
  case even =>
    intro other _ different
    rw [value_eq_rankValue, value_eq_rankValue, ← rank_parity]
    refine (between.nearest other.rank).2 fun same => different ?_
    rw [value_eq_rankValue, value_eq_rankValue, same]

section Distances

variable {lower upper quotient further : ℚ}

/-- What lies between two equally distant numbers is nearer than they are. -/
theorem nearer_between {middle : ℚ} (above : lower < middle) (below : middle < upper)
    (equal : |lower - quotient| = |upper - quotient|) :
    |middle - quotient| < |lower - quotient| := by
  have halfway : lower + upper = 2 * quotient := by
    rcases abs_eq_abs.mp equal with same | opposite
    · linarith
    · linarith
  rw [abs_of_neg (by linarith : lower - quotient < 0)]
  exact abs_lt.mpr ⟨by linarith, by linarith⟩

/-- If the upper number is not farther from one place and the lower not from a later one, both
places are halfway between the two. -/
theorem eq_of_crossed (order : quotient ≤ further) (less : lower < upper)
    (nearer : |upper - quotient| ≤ |lower - quotient|)
    (later : |lower - further| ≤ |upper - further|) : quotient = further := by
  have above : lower + upper ≤ 2 * quotient := by
    by_contra short
    have within : |lower - quotient| < upper - quotient :=
      abs_lt.mpr ⟨by linarith, by linarith⟩
    exact absurd nearer (not_le.mpr (lt_of_lt_of_le within (le_abs_self _)))
  have below : 2 * further ≤ lower + upper := by
    by_contra long
    have within : |upper - further| < further - lower :=
      abs_lt.mpr ⟨by linarith, by linarith⟩
    rw [abs_sub_comm lower] at later
    exact absurd later (not_le.mpr (lt_of_lt_of_le within (le_abs_self _)))
  linarith

end Distances

section Nearest

variable {quotient : ℚ} {number other : Binary64}

/-- Between two even numbers there is another one, so not both are nearest. -/
theorem IsNearest.not_less (nearest : IsNearest quotient number)
    (otherNearest : IsNearest quotient other) : ¬ number.value < other.value := by
  intro less
  have equal : |number.value - quotient| = |other.value - quotient| :=
    le_antisymm (nearest.least other otherNearest.finite)
      (otherNearest.least number nearest.finite)
  have even := (rank_parity number).mpr
    (nearest.even other otherNearest.finite (ne_of_gt less) equal.symm)
  have otherEven := (rank_parity other).mpr
    (otherNearest.even number nearest.finite (ne_of_lt less) equal)
  have finite := isFinite_iff_rank.mp nearest.finite
  have otherFinite := isFinite_iff_rank.mp otherNearest.finite
  have order : number.rank < other.rank := by
    rw [value_eq_rankValue, value_eq_rankValue] at less
    exact rankValue_lt_iff.mp less
  have between : (ofRank (number.rank + 1)).rank = number.rank + 1 := rank_ofRank (by omega)
  have least := nearest.least (ofRank (number.rank + 1)) (isFinite_iff_rank.mpr (by omega))
  have above := rankValue_lt (show number.rank < number.rank + 1 by omega)
  have below := rankValue_lt (show number.rank + 1 < other.rank by omega)
  rw [value_eq_rankValue, value_eq_rankValue, between] at least
  rw [value_eq_rankValue, value_eq_rankValue] at equal
  exact absurd least (not_le.mpr (nearer_between above below equal))

/-- A rational number is rounded to one value only. -/
theorem IsNearest.value_eq (nearest : IsNearest quotient number)
    (otherNearest : IsNearest quotient other) : number.value = other.value :=
  le_antisymm (not_lt.mp (otherNearest.not_less nearest)) (not_lt.mp (nearest.not_less otherNearest))

theorem IsNearest.value_le {further : ℚ} (nearest : IsNearest quotient number)
    (otherNearest : IsNearest further other) (order : quotient ≤ further) :
    number.value ≤ other.value := by
  by_contra less
  -- The two rational numbers are then both the midpoint of the two values.
  have bound := nearest.least other otherNearest.finite
  have otherBound := otherNearest.least number nearest.finite
  have same : quotient = further := eq_of_crossed order (not_le.mp less) bound otherBound
  rw [← same] at otherNearest
  exact otherNearest.not_less nearest (not_le.mp less)

theorem RoundsTo.isInfinite_iff (rounds : RoundsTo quotient number) :
    number.isInfinite = true ↔ limit ≤ |quotient| := by
  cases rounds with
  | finite below nearest =>
      have finite : number.pattern < infinitePattern := of_decide_eq_true nearest.finite
      rw [isInfinite, decide_eq_true_eq]
      exact iff_of_false (by omega) (not_le.mpr below)
  | infinite beyond infinite sign => exact iff_of_true infinite beyond

/-- Numbers are equal in value if they have the same place; the two zeros have. -/
theorem sameValue_iff_rank (finite : number.isFinite = true) :
    other.sameValue number = true ↔ other.rank = number.rank := by
  have below := isFinite_iff_rank.mp finite
  have shift : (1 <<< 63 : Nat) = 9223372036854775808 := rfl
  have wide := number.bits.toNat_lt
  have otherWide := other.bits.toNat_lt
  have patterns := rank_natAbs number
  have otherPatterns := rank_natAbs other
  simp only [sameValue, isNaN, Bool.and_eq_true, Bool.not_eq_true', decide_eq_false_iff_not,
    Bool.or_eq_true, beq_iff_eq, ← UInt64.toNat_inj]
  unfold rank isNegative pattern at *
  simp only [decide_eq_true_eq, shift] at *
  omega

theorem IsNearest.of_rank (nearest : IsNearest quotient number) (same : other.rank = number.rank) :
    IsNearest quotient other := by
  have values : other.value = number.value := by
    rw [value_eq_rankValue, value_eq_rankValue, same]
  constructor
  case finite =>
    rw [isFinite_iff_rank, same]
    exact isFinite_iff_rank.mp nearest.finite
  case least =>
    rw [values]
    exact nearest.least
  case even =>
    rw [values, ← rank_parity, same, rank_parity]
    exact nearest.even

/-- What a rational number is rounded to below the limit is determined up to the sign of zero. -/
theorem IsNearest.roundsTo_iff (nearest : IsNearest quotient number) (below : |quotient| < limit) :
    RoundsTo quotient other ↔ other.sameValue number = true := by
  rw [sameValue_iff_rank nearest.finite]
  constructor
  · intro rounds
    cases rounds with
    | finite _ otherNearest =>
        have values := otherNearest.value_eq nearest
        rw [value_eq_rankValue, value_eq_rankValue] at values
        exact rankValue_inj values
    | infinite beyond _ _ => exact absurd below (not_lt.mpr beyond)
  · intro same
    exact .finite below (nearest.of_rank same)

theorem RoundsTo.of_finite (rounds : RoundsTo quotient number) (finite : number.isFinite = true) :
    |quotient| < limit ∧ IsNearest quotient number := by
  cases rounds with
  | finite below nearest => exact ⟨below, nearest⟩
  | infinite _ infinite _ =>
      have below : number.pattern < infinitePattern := of_decide_eq_true finite
      have same : number.pattern = infinitePattern := of_decide_eq_true infinite
      omega

theorem eq_of_pattern (patterns : number.pattern = other.pattern)
    (signs : number.isNegative = other.isNegative) : number = other := by
  have shift : (1 <<< 63 : Nat) = 9223372036854775808 := rfl
  have wide := number.bits.toNat_lt
  have otherWide := other.bits.toNat_lt
  obtain ⟨bits⟩ := number
  obtain ⟨otherBits⟩ := other
  congr 1
  rw [← UInt64.toNat_inj]
  simp only [pattern, isNegative, decide_eq_decide, shift] at *
  omega

/-- With its sign, what a rational number is rounded to is determined. -/
theorem RoundsTo.unique (rounds : RoundsTo quotient number) (otherRounds : RoundsTo quotient other)
    (signs : number.isNegative = other.isNegative) : number = other := by
  refine eq_of_pattern ?_ signs
  cases otherRounds with
  | finite below otherNearest =>
      have same := (otherNearest.roundsTo_iff below).mp rounds
      rw [sameValue_iff_rank otherNearest.finite] at same
      rw [← rank_natAbs, ← rank_natAbs, same]
  | infinite beyond otherInfinite _ =>
      have infinite := rounds.isInfinite_iff.mpr beyond
      exact (of_decide_eq_true infinite).trans (of_decide_eq_true otherInfinite).symm

/-- Rounding follows the order of the rational numbers that are not negative. -/
theorem RoundsTo.value_le {further : ℚ} (rounds : RoundsTo quotient number)
    (otherRounds : RoundsTo further other) (notNegative : 0 ≤ quotient) (order : quotient ≤ further)
    (finite : other.isFinite = true) :
    number.isFinite = true ∧ number.value ≤ other.value := by
  obtain ⟨below, otherNearest⟩ := otherRounds.of_finite finite
  have smaller : |quotient| ≤ |further| := abs_le_abs_of_nonneg notNegative order
  cases rounds with
  | finite _ nearest => exact ⟨nearest.finite, nearest.value_le otherNearest order⟩
  | infinite beyond _ _ => linarith

end Nearest

/-! ### The nearest number -/

section Quotient

variable (numerator : Nat) {denominator : Nat} (positive : 0 < denominator)

theorem midpoint_magnitudes (pattern : Nat) :
    magnitude pattern + magnitude (pattern + 1) = midpoint pattern / unitsPerOne := by
  rw [magnitude, magnitude, midpoint, Nat.cast_add, add_div]

include positive

theorem midpoint_le_iff (pattern : Nat) :
    magnitude pattern + magnitude (pattern + 1) ≤ 2 * (numerator / denominator : ℚ) ↔
      midpoint pattern * denominator ≤ 2 * (numerator * unitsPerOne) := by
  have divides : (0 : ℚ) < denominator := Nat.cast_pos.mpr positive
  rw [midpoint_magnitudes, ← mul_div_assoc, div_le_div_iff₀ unitsPerOne_cast_pos divides, mul_assoc]
  norm_cast

theorem le_midpoint_iff (pattern : Nat) :
    2 * (numerator / denominator : ℚ) ≤ magnitude pattern + magnitude (pattern + 1) ↔
      2 * (numerator * unitsPerOne) ≤ midpoint pattern * denominator := by
  have divides : (0 : ℚ) < denominator := Nat.cast_pos.mpr positive
  rw [midpoint_magnitudes, ← mul_div_assoc, div_le_div_iff₀ divides unitsPerOne_cast_pos, mul_assoc]
  norm_cast

theorem Rounds.between {pattern : Nat}
    (rounds : Rounds (numerator * unitsPerOne) denominator pattern) :
    Between (numerator / denominator) pattern := by
  have above := midpoint_le_iff numerator positive
  have below := le_midpoint_iff numerator positive
  have parity : (pattern : ℤ) % 2 = 0 ↔ pattern % 2 = 0 := by omega
  have under : rankValue (pattern - 1) + rankValue pattern ≤ 2 * (numerator / denominator : ℚ) ∧
      (rankValue (pattern - 1) + rankValue pattern = 2 * (numerator / denominator : ℚ) →
        pattern % 2 = 0) := by
    cases pattern with
    | zero =>
        -- The midpoint before zero is negative.
        have previous := rankValue_lt (show ((0 : Nat) : ℤ) - 1 < (0 : Nat) by omega)
        have zero : rankValue ((0 : Nat) : ℤ) = 0 := magnitude_zero
        rw [zero] at previous ⊢
        rw [add_zero]
        exact ⟨le_trans previous.le (by positivity), fun _ => rfl⟩
    | succ lower =>
        have previous : ((lower + 1 : Nat) : ℤ) - 1 = lower := by omega
        rw [previous]
        refine ⟨(above lower).mpr (rounds.above lower rfl), fun equal => ?_⟩
        exact rounds.aboveTie lower rfl
          (Nat.le_antisymm ((above lower).mp equal.le) ((below lower).mp equal.ge))
  constructor
  case above => exact under.1
  case aboveTie => exact fun equal => parity.mpr (under.2 equal)
  case below => exact (below pattern).mpr rounds.below
  case belowTie =>
    intro equal
    exact parity.mpr (rounds.belowTie
      (Nat.le_antisymm ((below pattern).mp equal.le) ((above pattern).mp equal.ge)))

omit positive in
theorem limit_units : (midpoint largestPattern : ℚ) / unitsPerOne = 2 * limit := by
  have places : 4 * fractionCount - 1 = 2 ^ 54 - 1 := rfl
  have counted : ((2 ^ 54 - 1 : Nat) : ℚ) = 2 ^ 54 - 1 := by norm_num
  have power : (2 : ℚ) ^ 2045 = 2 * 2 ^ 970 * 2 ^ 1074 := by
    rw [← pow_succ', ← pow_add]
  have top : (2 : ℚ) ^ 1024 = 2 ^ 54 * 2 ^ 970 := by
    rw [← pow_add]
  rw [midpoint_largest, places, Nat.cast_mul, counted, Nat.cast_pow, Nat.cast_ofNat, power,
    unitsPerOne_cast, limit, top, ← mul_assoc, mul_div_cancel_right₀ _ (pow_ne_zero _ two_ne_zero)]
  generalize (2 : ℚ) ^ 970 = last
  ring

/-- A number with the pattern that is nearest to a quotient is what the quotient with its sign is
rounded to. -/
theorem roundsTo_of_nearestPattern {number : Binary64}
    (same : nearestPattern numerator denominator = number.pattern) :
    RoundsTo (if number.isNegative then -(numerator / denominator) else numerator / denominator)
      number := by
  have notNegative : (0 : ℚ) ≤ numerator / denominator := by positivity
  have size : |if number.isNegative then -(numerator / denominator : ℚ)
      else numerator / denominator| = numerator / denominator := by
    split
    · rw [abs_neg, abs_of_nonneg notNegative]
    · exact abs_of_nonneg notNegative
  have reached := midpoint_le_iff numerator positive largestPattern
  rw [midpoint_magnitudes, limit_units, mul_le_mul_iff_right₀ two_pos] at reached
  rcases nearestPattern_cases positive numerator with ⟨finite, less, rounds⟩ | ⟨infinite, more⟩
  · rw [same] at finite rounds
    refine .finite ?_ (Between.isNearest (decide_eq_true finite) ?_)
    · rw [size, ← not_le, reached]
      exact Nat.not_le.mpr less
    · have between := rounds.between numerator positive
      unfold rank
      split
      · exact between.neg
      · exact between
  · rw [same] at infinite
    have beyond := reached.mpr more
    refine .infinite (by rw [size]; exact beyond) (decide_eq_true infinite) ?_
    have some : (0 : ℚ) < numerator / denominator := lt_of_lt_of_le limit_pos beyond
    split
    · rename_i negative
      exact iff_of_true negative (neg_lt_zero.mpr some)
    · rename_i unsigned
      exact iff_of_false unsigned (not_lt.mpr notNegative)

theorem nearest_roundsTo :
    RoundsTo (numerator / denominator) (nearest numerator denominator) := by
  have rounds := roundsTo_of_nearestPattern numerator positive
    (nearest_pattern numerator denominator).symm
  rw [nearest_isNegative] at rounds
  exact rounds

end Quotient

end ExprWasm.Number.Binary64
