import Mathlib.Algebra.Order.Field.Power
import Mathlib.Algebra.Order.Field.Rat
import Mathlib.Order.Monotone.Basic
import Mathlib.Tactic.FieldSimp
import Mathlib.Tactic.Linarith
import Mathlib.Tactic.Ring
import Template.Double

/-!
# The nearest double

Magnitudes are the numbers of the format in ascending order, so a magnitude and the one after
it have no number of the format between them.  What is said here of rounding follows from two
facts about their values: they grow strictly (`value_strictMono`), and a quotient lies between
two neighbours one of which `nearest` picks (`isNearest_nearest`).

Rounding is specified by distances alone (`IsNearest`): no other number of the format is
closer, and of two that are equally close the even one is taken.  Infinity counts as the
number that would follow the greatest finite one.  The nearest number is unique, and greater
numbers have greater ones.
-/

namespace Template

namespace Double

/-! ## Values of magnitudes -/

/-- Within a binade the units of magnitudes are multiples of a power of two. -/
theorem units_grid {step multiple : Nat} (atMost : multiple ≤ 2 * binade)
    (normal : step = 0 ∨ binade ≤ multiple) :
    units (step * binade + multiple) = multiple * 2 ^ step := by
  have positive : 0 < binade := by decide
  have lowest {step : Nat} : units (step * binade + binade) = binade * 2 ^ step := by
    have excessEq : excess (step * binade + binade) = step := by
      rw [excess, ← Nat.succ_mul, Nat.mul_div_cancel _ positive, Nat.succ_sub_one]
    have significandEq : significand (step * binade + binade) = binade := by
      rw [significand, if_neg (by omega), ← Nat.succ_mul, Nat.mul_mod_left, Nat.zero_add]
    rw [units, excessEq, significandEq, Nat.shiftLeft_eq]
  by_cases small : multiple < binade
  · obtain rfl : step = 0 := normal.resolve_right (by omega)
    have excessEq : excess multiple = 0 := by
      rw [excess, Nat.div_eq_of_lt small]
    rw [Nat.zero_mul, Nat.zero_add, units, significand, if_pos small, excessEq,
      Nat.shiftLeft_eq]
  by_cases last : multiple = 2 * binade
  · -- The end of a binade is the beginning of the next one.
    subst last
    have next : step * binade + 2 * binade = (step + 1) * binade + binade := by ring
    rw [next, lowest]
    ring
  · obtain ⟨rest, rfl⟩ := Nat.exists_eq_add_of_le (Nat.le_of_not_lt small)
    have restSmall : rest < binade := by omega
    have place : step * binade + (binade + rest) = rest + (step + 1) * binade := by ring
    have excessEq : excess (rest + (step + 1) * binade) = step := by
      rw [excess, Nat.add_mul_div_right _ _ positive, Nat.div_eq_of_lt restSmall]
      omega
    have significandEq : significand (rest + (step + 1) * binade) = binade + rest := by
      have above : ¬ rest + (step + 1) * binade < binade := by
        rw [Nat.succ_mul]
        omega
      rw [significand, if_neg above, Nat.add_mul_mod_self_right, Nat.mod_eq_of_lt restSmall,
        Nat.add_comm]
    rw [place, units, excessEq, significandEq, Nat.shiftLeft_eq]

/-- Every magnitude is a place on the grid of its binade, and not the last one. -/
theorem exists_grid (magnitude : Nat) :
    ∃ multiple < 2 * binade, (excess magnitude = 0 ∨ binade ≤ multiple) ∧
      magnitude = excess magnitude * binade + multiple := by
  by_cases small : magnitude < binade
  · have excessEq : excess magnitude = 0 := by
      rw [excess, Nat.div_eq_of_lt small]
    exact ⟨magnitude, by omega, .inl excessEq, by rw [excessEq]; omega⟩
  · have split := Nat.div_add_mod' magnitude binade
    have restSmall : magnitude % binade < binade := Nat.mod_lt _ (by decide)
    have atLeast : 1 ≤ magnitude / binade := Nat.div_pos (by omega) (by decide)
    obtain ⟨step, stepEq⟩ := Nat.exists_eq_add_of_le' atLeast
    have excessEq : excess magnitude = step := by
      rw [excess, stepEq, Nat.add_sub_cancel]
    rw [stepEq, Nat.succ_mul] at split
    exact ⟨binade + magnitude % binade, by omega, .inr (by omega), by rw [excessEq]; omega⟩

/-- The distance of a magnitude to the next one. -/
theorem units_succ (magnitude : Nat) :
    units (magnitude + 1) = units magnitude + 2 ^ excess magnitude := by
  obtain ⟨multiple, notLast, normal, place⟩ := exists_grid magnitude
  generalize excess magnitude = step at normal place
  rw [place, Nat.add_assoc, units_grid (by omega) (by omega), units_grid (by omega) normal]
  ring

theorem units_strictMono : StrictMono units := by
  refine strictMono_nat_of_lt_succ fun magnitude => ?_
  rw [units_succ]
  exact Nat.lt_add_of_pos_right (Nat.two_pow_pos _)

/-- The value of a magnitude.  Infinity has the value of the number after the greatest finite
one, which is `2 ^ 1024`. -/
def value (magnitude : Nat) : ℚ :=
  units magnitude / scale

/-- The value of a place on the grid of a binade. -/
theorem value_grid {step multiple : Nat} (atMost : multiple ≤ 2 * binade)
    (normal : step = 0 ∨ binade ≤ multiple) :
    value (step * binade + multiple) = multiple * 2 ^ step / scale := by
  rw [value, units_grid atMost normal, Nat.cast_mul, Nat.cast_pow, Nat.cast_ofNat]

theorem scale_pos : (0 : ℚ) < scale := by
  have positive : 0 < scale := by decide +kernel
  exact_mod_cast positive

theorem value_strictMono : StrictMono value := by
  intro lower upper below
  have unitsBelow : (units lower : ℚ) < units upper := by
    exact_mod_cast units_strictMono below
  exact div_lt_div_of_pos_right unitsBelow scale_pos

theorem value_zero : value 0 = 0 := by
  have units : units 0 = 0 := by decide
  rw [value, units, Nat.cast_zero, zero_div]

theorem value_infinite : value infinite = 2 ^ 1024 := by
  have units : units infinite = 2 ^ 1024 * scale := by decide +kernel
  rw [value, units, Nat.cast_mul, mul_div_cancel_right₀ _ scale_pos.ne', Nat.cast_pow,
    Nat.cast_ofNat]

/-! ## Rounding -/

/-- A magnitude is the nearest to a number if no other one is closer to it and if it is even
where another one is equally close. -/
structure IsNearest (magnitude : Nat) (number : ℚ) : Prop where
  le_infinite : magnitude ≤ infinite
  closest : ∀ other ≤ infinite, |value magnitude - number| ≤ |value other - number|
  even : ∀ other ≤ infinite, other ≠ magnitude →
    |value other - number| = |value magnitude - number| → magnitude % 2 = 0

variable {lower magnitude other : Nat} {number : ℚ}

theorem distance_of_le (above : value magnitude ≤ number) :
    |value magnitude - number| = number - value magnitude := by
  rw [abs_sub_comm, abs_of_nonneg (sub_nonneg.mpr above)]

theorem distance_of_ge (below : number ≤ value magnitude) :
    |value magnitude - number| = value magnitude - number :=
  abs_of_nonneg (sub_nonneg.mpr below)

/-- Of the magnitudes up to one below a number, this one is the closest. -/
theorem sub_value_le_distance (above : value lower ≤ number) (atMost : other ≤ lower) :
    number - value lower ≤ |value other - number| := by
  have monotone := value_strictMono.monotone atMost
  rw [distance_of_le (monotone.trans above)]
  linarith

/-- Of the magnitudes from one above a number on, this one is the closest. -/
theorem value_sub_le_distance (below : number ≤ value lower) (atLeast : lower ≤ other) :
    value lower - number ≤ |value other - number| := by
  have monotone := value_strictMono.monotone atLeast
  rw [distance_of_ge (below.trans monotone)]
  linarith

/-- A number between two neighbours has a nearest magnitude, which is one of them. -/
theorem isNearest_between (inRange : lower + 1 ≤ infinite) (above : value lower ≤ number)
    (below : number ≤ value (lower + 1)) :
    (number - value lower < value (lower + 1) - number → IsNearest lower number) ∧
    (value (lower + 1) - number < number - value lower → IsNearest (lower + 1) number) ∧
    (number - value lower = value (lower + 1) - number →
      IsNearest (lower + lower % 2) number) := by
  have closer (other : Nat) : number - value lower ≤ |value other - number| ∨
      value (lower + 1) - number ≤ |value other - number| ∧ lower ≠ other := by
    by_cases atMost : other ≤ lower
    · exact .inl (sub_value_le_distance above atMost)
    · exact .inr ⟨value_sub_le_distance below (by omega), by omega⟩
  refine ⟨?_, ?_, ?_⟩
  · intro nearer
    have distance := distance_of_le above
    refine ⟨by omega, ?_, ?_⟩
    · intro other _
      rcases closer other with left | ⟨right, -⟩
      · rwa [distance]
      · linarith
    · intro other _ different same
      exfalso
      by_cases atMost : other < lower
      · have further := value_strictMono atMost
        rw [distance_of_le (further.le.trans above), distance] at same
        linarith
      · have right := value_sub_le_distance below (show lower + 1 ≤ other by omega)
        linarith
  · intro nearer
    have distance := distance_of_ge below
    refine ⟨inRange, ?_, ?_⟩
    · intro other _
      rcases closer other with left | ⟨right, -⟩
      · linarith
      · rwa [distance]
    · intro other _ different same
      exfalso
      by_cases atMost : other ≤ lower
      · have left := sub_value_le_distance above atMost
        linarith
      · have further := value_strictMono (show lower + 1 < other by omega)
        rw [distance_of_ge (below.trans further.le), distance] at same
        linarith
  · intro middle
    have distance : |value (lower + lower % 2) - number| = number - value lower := by
      rcases Nat.mod_two_eq_zero_or_one lower with even | odd
      · rw [even, Nat.add_zero, distance_of_le above]
      · rw [odd, distance_of_ge below, middle]
    refine ⟨by omega, ?_, fun _ _ _ _ => by omega⟩
    intro other _
    rw [distance]
    rcases closer other with left | ⟨right, -⟩
    · exact left
    · linarith

/-- Numbers from `2 ^ 1024` on are rounded to infinity. -/
theorem isNearest_infinite (above : value infinite ≤ number) : IsNearest infinite number where
  le_infinite := le_refl _
  closest := by
    intro other atMost
    rw [distance_of_le above]
    exact sub_value_le_distance above atMost
  even := fun _ _ _ _ => by decide

/-- The value of a magnitude is rounded to the magnitude. -/
theorem isNearest_value (inRange : magnitude ≤ infinite) :
    IsNearest magnitude (value magnitude) where
  le_infinite := inRange
  closest := by
    intro other _
    rw [sub_self, abs_zero]
    exact abs_nonneg _
  even := by
    intro other _ different same
    rw [sub_self, abs_zero, abs_eq_zero, sub_eq_zero] at same
    exact absurd (value_strictMono.injective same) different

namespace IsNearest

variable {first second : Nat} {least greatest : ℚ}

/-- A number is not beyond the middle between its nearest magnitude and a greater one. -/
theorem le_middle (nearest : IsNearest first number) (below : first < second)
    (inRange : second ≤ infinite) : 2 * number ≤ value first + value second := by
  by_contra beyond
  have values := value_strictMono below
  have closest := nearest.closest second inRange
  rw [distance_of_le (show value first ≤ number by linarith)] at closest
  rcases le_total number (value second) with atMost | atLeast
  · rw [distance_of_ge atMost] at closest
    linarith
  · rw [distance_of_le atLeast] at closest
    linarith

/-- A number is not before the middle between its nearest magnitude and a smaller one. -/
theorem middle_le (nearest : IsNearest second number) (below : first < second) :
    value first + value second ≤ 2 * number := by
  by_contra before
  have values := value_strictMono below
  have closest := nearest.closest first (below.le.trans nearest.le_infinite)
  rw [distance_of_ge (show number ≤ value second by linarith)] at closest
  rcases le_total (value first) number with atLeast | atMost
  · rw [distance_of_le atLeast] at closest
    linarith
  · rw [distance_of_ge atMost] at closest
    linarith

/-- Between two even magnitudes there is another one, which is closer to their middle. -/
theorem not_lt (firstNearest : IsNearest first number) (secondNearest : IsNearest second number) :
    ¬ first < second := by
  intro below
  have middle : number - value first = value second - number := by
    linarith [firstNearest.le_middle below secondNearest.le_infinite, secondNearest.middle_le below]
  have values := value_strictMono below
  have firstDistance := distance_of_le (show value first ≤ number by linarith)
  have secondDistance := distance_of_ge (show number ≤ value second by linarith)
  have same : |value second - number| = |value first - number| := by
    rw [firstDistance, secondDistance, middle]
  have firstEven := firstNearest.even second secondNearest.le_infinite (by omega) same
  have secondEven := secondNearest.even first firstNearest.le_infinite (by omega) same.symm
  have between : first + 1 < second := by omega
  have closer := firstNearest.le_middle (Nat.lt_succ_self first)
    (between.le.trans secondNearest.le_infinite)
  linarith [value_strictMono between]

/-- The nearest magnitude is unique. -/
theorem unique (firstNearest : IsNearest first number) (secondNearest : IsNearest second number) :
    first = second := by
  have notBelow := firstNearest.not_lt secondNearest
  have notAbove := secondNearest.not_lt firstNearest
  omega

/-- Greater numbers have greater nearest magnitudes. -/
theorem mono (firstNearest : IsNearest first least) (secondNearest : IsNearest second greatest)
    (ordered : least ≤ greatest) : first ≤ second := by
  by_contra notOrdered
  have below : second < first := by omega
  have same : least = greatest := by
    linarith [firstNearest.middle_le below, secondNearest.le_middle below firstNearest.le_infinite]
  rw [same] at firstNearest
  exact notOrdered (firstNearest.unique secondNearest).le

end IsNearest

/-! ## The rounding of quotients -/

/-- A quotient in units is put into a binade with a step that is a power of two. -/
theorem scaled_bounds {scaled denominator step : Nat}
    (stepEq : step = (scaled / denominator).log2 - 52) :
    scaled / (denominator <<< step) < 2 * binade ∧
      (step = 0 ∨ binade ≤ scaled / (denominator <<< step)) := by
  have division : scaled / (denominator <<< step) = scaled / denominator / 2 ^ step := by
    rw [Nat.shiftLeft_eq, Nat.div_div_eq_div_mul]
  rw [division]
  generalize scaled / denominator = quotient at stepEq
  constructor
  · rw [Nat.div_lt_iff_lt_mul (Nat.two_pow_pos _)]
    calc quotient
      _ < 2 ^ (quotient.log2 + 1) := Nat.lt_log2_self
      _ ≤ 2 ^ (53 + step) := Nat.pow_le_pow_right (by decide) (by omega)
      _ = 2 * binade * 2 ^ step := by
        rw [Nat.pow_add]
        rfl
  · by_cases zero : step = 0
    · exact .inl zero
    · right
      have nonzero : quotient ≠ 0 := by
        rintro rfl
        exact zero stepEq
      rw [Nat.le_div_iff_mul_le (Nat.two_pow_pos _)]
      calc binade * 2 ^ step
        _ = 2 ^ (52 + step) := by
          rw [Nat.pow_add]
          rfl
        _ ≤ 2 ^ quotient.log2 := Nat.pow_le_pow_right (by decide) (by omega)
        _ ≤ quotient := Nat.log2_self_le nonzero

/-- Rounding to a multiple picks one of the neighbours. -/
theorem roundDiv_cases (numerator denominator : Nat) :
    roundDiv numerator denominator = numerator / denominator ∧
        2 * (numerator % denominator) < denominator ∨
    roundDiv numerator denominator = numerator / denominator + 1 ∧
        denominator < 2 * (numerator % denominator) ∨
    roundDiv numerator denominator = numerator / denominator + numerator / denominator % 2 ∧
      2 * (numerator % denominator) = denominator := by
  simp only [roundDiv]
  split
  · exact .inl ⟨rfl, ‹_›⟩
  · split
    · exact .inr (.inl ⟨rfl, ‹_›⟩)
    · exact .inr (.inr ⟨rfl, by omega⟩)

/-- The distances of a quotient to its neighbours on a grid, from its division by the step of
the grid. -/
theorem distances_grid {numerator denominator step multiple rest : Nat}
    (positive : 0 < denominator) (small : multiple < 2 * binade)
    (normal : step = 0 ∨ binade ≤ multiple)
    (split : numerator * scale = multiple * (denominator * 2 ^ step) + rest) :
    (numerator : ℚ) / denominator - value (step * binade + multiple) =
        rest / (denominator * scale) ∧
      value (step * binade + multiple + 1) - numerator / denominator =
        (denominator * 2 ^ step - rest) / (denominator * scale) := by
  have denominatorPositive : (0 : ℚ) < denominator := by exact_mod_cast positive
  have scalePositive := scale_pos
  have splitCast : (numerator : ℚ) * scale = multiple * (denominator * 2 ^ step) + rest := by
    exact_mod_cast split
  have valueLower := value_grid small.le normal
  have valueUpper : value (step * binade + multiple + 1) = (multiple + 1) * 2 ^ step / scale := by
    rw [Nat.add_assoc, value_grid small (by omega), Nat.cast_succ]
  generalize (scale : ℚ) = one at scalePositive splitCast valueLower valueUpper ⊢
  constructor
  · rw [valueLower]
    field_simp
    linarith
  · rw [valueUpper]
    field_simp
    linarith

/-- What rounding a quotient comes to: a division by the step of a grid, whose rest decides
between the two neighbours. -/
theorem nearest_cases (numerator : Nat) {denominator : Nat} (positive : 0 < denominator) :
    ∃ step multiple rest rounded, multiple < 2 * binade ∧ (step = 0 ∨ binade ≤ multiple) ∧
      numerator * scale = multiple * (denominator * 2 ^ step) + rest ∧
      rest < denominator * 2 ^ step ∧
      nearest numerator denominator = min infinite (step * binade + rounded) ∧
      (rounded = multiple ∧ 2 * rest < denominator * 2 ^ step ∨
        rounded = multiple + 1 ∧ denominator * 2 ^ step < 2 * rest ∨
        rounded = multiple + multiple % 2 ∧ 2 * rest = denominator * 2 ^ step) := by
  let step := (numerator * scale / denominator).log2 - 52
  obtain ⟨small, normal⟩ : _ ∧ (step = 0 ∨ _) := scaled_bounds rfl
  have cases := roundDiv_cases (numerator * scale) (denominator <<< step)
  have split := Nat.div_add_mod' (numerator * scale) (denominator <<< step)
  have shifted : denominator <<< step = denominator * 2 ^ step := Nat.shiftLeft_eq _ _
  have stepPositive : 0 < denominator * 2 ^ step := Nat.mul_pos positive (Nat.two_pow_pos _)
  refine ⟨step, numerator * scale / (denominator <<< step),
    numerator * scale % (denominator <<< step), roundDiv (numerator * scale) (denominator <<< step),
    small, normal, ?_, ?_, rfl, ?_⟩
  · rw [← shifted]
    exact split.symm
  · rw [shifted]
    exact Nat.mod_lt _ stepPositive
  · rw [← shifted]
    exact cases

/-- A quotient is rounded to the nearest magnitude. -/
theorem isNearest_nearest (numerator : Nat) {denominator : Nat} (positive : 0 < denominator) :
    IsNearest (nearest numerator denominator) (numerator / denominator) := by
  obtain ⟨step, multiple, rest, rounded, small, normal, split, restSmall, nearestEq, cases⟩ :=
    nearest_cases numerator positive
  obtain ⟨toLower, toUpper⟩ := distances_grid positive small normal split
  have unitPositive : (0 : ℚ) < denominator * scale :=
    mul_pos (by exact_mod_cast positive) scale_pos
  have restSmallCast : (rest : ℚ) < denominator * 2 ^ step := by exact_mod_cast restSmall
  generalize (denominator : ℚ) * scale = unit at toLower toUpper unitPositive
  have above : value (step * binade + multiple) ≤ (numerator : ℚ) / denominator := by
    rw [← sub_nonneg, toLower]
    exact div_nonneg (Nat.cast_nonneg _) unitPositive.le
  have beneath : (numerator : ℚ) / denominator ≤ value (step * binade + multiple + 1) := by
    rw [← sub_nonneg, toUpper]
    exact div_nonneg (by linarith) unitPositive.le
  rw [nearestEq]
  by_cases inRange : step * binade + multiple + 1 ≤ infinite
  · obtain ⟨nearLower, nearUpper, middle⟩ := isNearest_between inRange above beneath
    rw [toLower, toUpper] at nearLower nearUpper middle
    rw [div_lt_div_iff_of_pos_right unitPositive] at nearLower nearUpper
    rw [div_left_inj' unitPositive.ne'] at middle
    rcases cases with ⟨rfl, closer⟩ | ⟨rfl, closer⟩ | ⟨rfl, equal⟩
    · have closerCast : 2 * (rest : ℚ) < denominator * 2 ^ step := by exact_mod_cast closer
      rw [Nat.min_eq_right (by omega)]
      exact nearLower (by linarith)
    · have closerCast : (denominator : ℚ) * 2 ^ step < 2 * rest := by exact_mod_cast closer
      rw [Nat.min_eq_right (by omega), ← Nat.add_assoc]
      exact nearUpper (by linarith)
    · have equalCast : 2 * (rest : ℚ) = denominator * 2 ^ step := by exact_mod_cast equal
      have even : binade % 2 = 0 := by decide
      have parity : (step * binade + multiple) % 2 = multiple % 2 := by
        rw [Nat.add_mod, Nat.mul_mod, even, Nat.mul_zero, Nat.zero_mod, Nat.zero_add, Nat.mod_mod]
      rw [Nat.min_eq_right (by omega), ← Nat.add_assoc, ← parity]
      exact middle (by linarith)
  · rw [Nat.min_eq_left (by omega)]
    exact isNearest_infinite ((value_strictMono.monotone (by omega)).trans above)

end Double

/-! ## The rounding of decimals -/

/-- The number that a decimal stands for. -/
def Decimal.value (decimal : Decimal) : ℚ :=
  decimal.coefficient * 10 ^ decimal.exponent

namespace Decimal

variable {decimal : Decimal}

theorem value_succ (coefficient : Nat) (exponent : Int) :
    (⟨coefficient + 1, exponent⟩ : Decimal).value =
      (⟨coefficient, exponent⟩ : Decimal).value + 10 ^ exponent := by
  rw [value, value, Nat.cast_succ]
  ring

/-- The number of digits of a number tells it up to a factor of ten. -/
theorem exists_length_toDigits {number : Nat} (nonzero : number ≠ 0) :
    ∃ count, (Nat.toDigits 10 number).length = count + 1 ∧
      10 ^ count ≤ number ∧ number < 10 ^ (count + 1) := by
  obtain ⟨count, length⟩ : ∃ count, (Nat.toDigits 10 number).length = count + 1 :=
    Nat.exists_eq_add_of_le' Nat.length_toDigits_pos
  refine ⟨count, length, ?_,
    (Nat.length_toDigits_le_iff (by decide) (Nat.zero_lt_succ _)).mp length.le⟩
  rcases Nat.eq_zero_or_pos count with rfl | positive
  · exact Nat.pos_of_ne_zero nonzero
  · apply Nat.le_of_not_lt
    intro small
    have short := (Nat.length_toDigits_le_iff (by decide) positive).mpr small
    omega

/-- The first digit of a decimal tells its value up to a factor of ten. -/
theorem value_bounds (nonzero : decimal.coefficient ≠ 0) :
    10 ^ decimal.leading ≤ decimal.value ∧ decimal.value < 10 ^ (decimal.leading + 1) := by
  obtain ⟨count, length, above, below⟩ := exists_length_toDigits nonzero
  have belowCast : (decimal.coefficient : ℚ) < 10 ^ (count + 1) := by exact_mod_cast below
  have aboveCast : (10 : ℚ) ^ count ≤ decimal.coefficient := by exact_mod_cast above
  have leadingEq : decimal.leading = count + decimal.exponent := by
    rw [leading, digits, length, Nat.cast_succ, add_sub_cancel_right]
  have power : (0 : ℚ) < 10 ^ decimal.exponent := by positivity
  have lowest : (10 : ℚ) ^ decimal.leading = 10 ^ count * 10 ^ decimal.exponent := by
    rw [leadingEq, zpow_add₀ (by norm_num), zpow_natCast]
  have highest : (10 : ℚ) ^ (decimal.leading + 1) = 10 ^ (count + 1) * 10 ^ decimal.exponent := by
    rw [zpow_add₀ (by norm_num), lowest, zpow_one, pow_succ]
    ring
  rw [lowest, highest, value]
  exact ⟨mul_le_mul_of_nonneg_right aboveCast power.le, mul_lt_mul_of_pos_right belowCast power⟩

end Decimal

namespace Double

variable {number : ℚ}

/-- Numbers that are not half of the least magnitude are rounded to zero. -/
theorem isNearest_zero (nonneg : 0 ≤ number) (small : number < 10 ^ (-400 : ℤ)) :
    IsNearest 0 number := by
  have bound : 2 * scale < 10 ^ 400 := by decide +kernel
  have boundCast : 2 * (scale : ℚ) < 10 ^ 400 := by exact_mod_cast bound
  have least : value 1 = 1 / scale := by
    have units : units 1 = 1 := by decide
    rw [value, units, Nat.cast_one]
  have half : number < 1 / scale - number := by
    have scalePositive := scale_pos
    have reciprocal : (10 : ℚ) ^ (-400 : ℤ) = 1 / 10 ^ 400 := by
      rw [zpow_neg, zpow_ofNat, one_div]
    rw [reciprocal] at small
    generalize (scale : ℚ) = one at boundCast scalePositive ⊢
    generalize (10 : ℚ) ^ 400 = power at boundCast small
    have closer : 2 / power < 1 / one := by
      rw [div_lt_div_iff₀ (by linarith) scalePositive]
      linarith
    have twice : 2 / power = 2 * (1 / power) := by ring
    linarith
  have above : value 0 ≤ number := by rwa [value_zero]
  have below : number ≤ value (0 + 1) := by
    rw [Nat.zero_add, least]
    linarith
  refine (isNearest_between (by decide) above below).1 ?_
  rw [value_zero, sub_zero, Nat.zero_add, least]
  exact half

theorem cast_powerOfTen (power : Nat) : ((Nat.pow 10 power : Nat) : ℚ) = 10 ^ (power : ℤ) := by
  rw [Nat.pow_eq, Nat.cast_pow, Nat.cast_ofNat, zpow_natCast]

/-- A decimal is rounded to the nearest magnitude. -/
theorem isNearest_nearestDecimal (decimal : Decimal) :
    IsNearest (nearestDecimal decimal) decimal.value := by
  have nonneg : 0 ≤ decimal.value := by
    rw [Decimal.value]
    positivity
  rw [nearestDecimal]
  split
  next zero =>
    have valueZero : decimal.value = 0 := by
      rw [Decimal.value, eq_of_beq zero, Nat.cast_zero, zero_mul]
    rw [valueZero]
    exact isNearest_zero le_rfl (by positivity)
  next nonzero =>
  have bounds := Decimal.value_bounds (by simpa using nonzero)
  split
  next high =>
    have bound : units infinite ≤ 10 ^ 400 * scale := by decide +kernel
    have boundCast : (units infinite : ℚ) ≤ 10 ^ 400 * scale := by exact_mod_cast bound
    apply isNearest_infinite
    calc value infinite
      _ ≤ 10 ^ 400 := (div_le_iff₀ scale_pos).mpr boundCast
      _ = 10 ^ (400 : ℤ) := (zpow_ofNat 10 400).symm
      _ ≤ 10 ^ decimal.leading := zpow_le_zpow_right₀ (by norm_num) high.le
      _ ≤ decimal.value := bounds.1
  split
  next low =>
    apply isNearest_zero nonneg
    exact bounds.2.trans_le (zpow_le_zpow_right₀ (by norm_num) (by omega))
  split
  next natural =>
    obtain ⟨power, exponent⟩ := Int.eq_ofNat_of_zero_le natural
    have quotient : decimal.value =
        (decimal.coefficient * Nat.pow 10 decimal.exponent.toNat : Nat) / (1 : Nat) := by
      rw [Decimal.value, exponent, Int.toNat_natCast, Nat.cast_one, div_one, Nat.cast_mul,
        cast_powerOfTen]
    rw [quotient]
    exact isNearest_nearest _ Nat.one_pos
  next negative =>
    obtain ⟨power, exponent⟩ := Int.eq_ofNat_of_zero_le (show 0 ≤ -decimal.exponent by omega)
    have quotient : decimal.value =
        (decimal.coefficient : ℚ) / (Nat.pow 10 (-decimal.exponent).toNat : Nat) := by
      rw [Decimal.value, ← neg_neg decimal.exponent, exponent, neg_neg, Int.toNat_natCast,
        cast_powerOfTen, zpow_neg, div_eq_mul_inv]
    rw [quotient]
    exact isNearest_nearest _ (Nat.pow_pos (by decide))

/-! ## The rounding of integers -/

theorem isNearest_natural (natural : Nat) : IsNearest (nearest natural 1) natural := by
  have nearest := isNearest_nearest natural Nat.one_pos
  rwa [Nat.cast_one, div_one] at nearest

theorem isNearest_ofInt (integer : Int) : IsNearest (ofInt integer).magnitude integer.natAbs :=
  isNearest_natural integer.natAbs

theorem negative_ofInt (natural : Nat) : (ofInt natural).negative = false := by
  simp [ofInt]

/-- The natural numbers below `2 ^ 53` are numbers of the format. -/
theorem exists_value_natural {natural : Nat} (below : natural < 2 ^ 53) :
    ∃ magnitude ≤ infinite, value magnitude = natural := by
  rcases Nat.eq_zero_or_pos natural with rfl | positive
  · exact ⟨0, Nat.zero_le _, value_zero⟩
  -- The number has its first bit at the place of the binade after a shift.
  have firstBit : natural.log2 ≤ 52 :=
    Nat.le_of_lt_succ ((Nat.log2_lt positive.ne').mpr below)
  obtain ⟨shift, shiftEq⟩ := Nat.exists_eq_add_of_le firstBit
  have atLeast : binade ≤ natural * 2 ^ shift := by
    calc binade
      _ = 2 ^ natural.log2 * 2 ^ shift := by
        rw [← Nat.pow_add, ← shiftEq]
        rfl
      _ ≤ natural * 2 ^ shift := Nat.mul_le_mul_right _ (Nat.log2_self_le positive.ne')
  have atMost : natural * 2 ^ shift ≤ 2 * binade := by
    calc natural * 2 ^ shift
      _ ≤ 2 ^ (natural.log2 + 1) * 2 ^ shift := Nat.mul_le_mul_right _ Nat.lt_log2_self.le
      _ = 2 * (2 ^ natural.log2 * 2 ^ shift) := by ring
      _ = 2 * binade := by
        rw [← Nat.pow_add, ← shiftEq]
        rfl
  have unitsEq : units ((1074 - shift) * binade + natural * 2 ^ shift) = _ :=
    units_grid atMost (.inr atLeast)
  refine ⟨(1074 - shift) * binade + natural * 2 ^ shift, ?_, ?_⟩
  · calc (1074 - shift) * binade + natural * 2 ^ shift
      _ ≤ 1074 * binade + 2 * binade :=
        Nat.add_le_add (Nat.mul_le_mul_right _ (Nat.sub_le _ _)) atMost
      _ ≤ infinite := by decide
  · have scaled : units ((1074 - shift) * binade + natural * 2 ^ shift) = natural * scale := by
      have parts {bits : Nat} (enough : shift ≤ bits) :
          1 <<< bits = 2 ^ shift * 2 ^ (bits - shift) := by
        rw [← Nat.pow_add, Nat.add_sub_cancel' enough, Nat.one_shiftLeft]
      rw [unitsEq, scale, parts (show shift ≤ 1074 by omega), Nat.mul_assoc]
    rw [value, scaled, Nat.cast_mul, mul_div_cancel_right₀ _ scale_pos.ne']

end Double

end Template
