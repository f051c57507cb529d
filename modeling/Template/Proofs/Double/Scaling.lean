import Template.Proofs.Double.Nearest

/-!
# The range of scaled decimals

A decimal that is scaled is rounded three times at most: its coefficient, the power of ten and
their product or quotient.  Each time the number grows by a small part of it only
(`IsNearest.value_le`), so a decimal has to be next to the greatest finite double to be scaled
to infinity (`scaledDecimal_lt_infinite`).
-/

namespace Template

namespace Double

variable {magnitude left right : Nat} {number : ℚ}

/-! ## One rounding -/

theorem value_nonneg (magnitude : Nat) : 0 ≤ value magnitude :=
  div_nonneg (Nat.cast_nonneg _) scale_pos.le

theorem value_greatest : value (infinite - 1) = (2 ^ 54 - 2) * 2 ^ 970 := by
  have units : units (infinite - 1) = (2 ^ 54 - 2) * 2 ^ 970 * scale := by decide +kernel
  rw [value, units, Nat.cast_mul, mul_div_cancel_right₀ _ scale_pos.ne', Nat.cast_mul, Nat.cast_pow,
    Nat.cast_ofNat]
  norm_num only

/-- The middle between the greatest finite magnitude and the number after it. -/
def limit : ℚ := (2 ^ 54 - 1) * 2 ^ 970

theorem value_lt_limit (finite : magnitude < infinite) : value magnitude < limit := by
  apply (value_strictMono.monotone (Nat.le_sub_one_of_lt finite)).trans_lt
  rw [value_greatest, limit]
  exact mul_lt_mul_of_pos_right (by norm_num only) (by positivity)

/-- Numbers below the limit are not rounded to infinity. -/
theorem IsNearest.lt_infinite (nearest : IsNearest magnitude number) (below : number < limit) :
    magnitude < infinite := by
  by_contra notBelow
  obtain rfl : magnitude = infinite := Nat.le_antisymm nearest.le_infinite (Nat.not_lt.mp notBelow)
  have middle := nearest.middle_le (show infinite - 1 < infinite by decide)
  have whole : (2 : ℚ) ^ 1024 = 2 ^ 54 * 2 ^ 970 := pow_add 2 54 970
  rw [value_greatest, value_infinite, whole] at middle
  rw [limit] at below
  generalize (2 : ℚ) ^ 970 = unit at middle below
  linarith

/-- From the least normal magnitude on, the next one is greater by a small part. -/
theorem value_succ_sub_le (normal : binade ≤ magnitude) :
    (value (magnitude + 1) - value magnitude) * 2 ^ 52 ≤ value magnitude := by
  obtain ⟨multiple, notLast, atLeast, place⟩ := exists_grid magnitude
  have multipleAtLeast : binade ≤ multiple := by
    rcases atLeast with zero | atLeast
    · rw [zero, Nat.zero_mul, Nat.zero_add] at place
      exact place ▸ normal
    · exact atLeast
  have unitsAtLeast : 2 ^ excess magnitude * binade ≤ units magnitude := by
    have grid := @units_grid (excess magnitude) multiple notLast.le (.inr multipleAtLeast)
    rw [← place] at grid
    rw [grid, Nat.mul_comm]
    exact Nat.mul_le_mul_right _ multipleAtLeast
  have binadeEq : binade = 2 ^ 52 := by decide
  have unitsCast : (2 : ℚ) ^ excess magnitude * 2 ^ 52 ≤ units magnitude := by
    rw [binadeEq] at unitsAtLeast
    exact_mod_cast unitsAtLeast
  rw [value, value, units_succ, ← sub_div, div_mul_eq_mul_div]
  apply div_le_div_of_nonneg_right _ scale_pos.le
  push_cast
  linarith

theorem value_binade_le_one : value binade ≤ 1 := by
  have units : units binade ≤ scale := by decide +kernel
  rw [value, div_le_iff₀ scale_pos, one_mul]
  exact_mod_cast units

/-- A number that is not less than one grows by the part `2 ^ -53` of it at most. -/
theorem IsNearest.value_le (nearest : IsNearest magnitude number) (atLeast : 1 ≤ number) :
    value magnitude ≤ number * (1 + 1 / 2 ^ 53) := by
  by_cases small : magnitude ≤ binade
  · have atMost := (value_strictMono.monotone small).trans value_binade_le_one
    linarith
  · obtain ⟨previous, rfl⟩ := Nat.exists_eq_add_of_lt (Nat.zero_lt_of_lt (Nat.not_le.mp small))
    rw [Nat.zero_add] at *
    have middle := nearest.middle_le (Nat.lt_succ_self previous)
    have gap := value_succ_sub_le (show binade ≤ previous by omega)
    have grows := value_strictMono (Nat.lt_succ_self previous)
    generalize value (previous + 1) = last at *
    norm_num at gap ⊢
    linarith

/-! ## Powers, products and quotients -/

theorem isNearest_powerOfTen (power : Nat) : IsNearest (powerOfTen power) (10 ^ power) := by
  have nearest := isNearest_natural (10 ^ power)
  rwa [Nat.cast_pow, Nat.cast_ofNat] at nearest

theorem isNearest_product (left right : Nat) :
    IsNearest (product left right) (value left * value right) := by
  have positive : 0 < scale * scale := by decide +kernel
  have nearest := isNearest_nearest (units left * units right) positive
  rwa [Nat.cast_mul, Nat.cast_mul, ← div_mul_div_comm] at nearest

theorem isNearest_quotient (left : Nat) (positive : 0 < units right) :
    IsNearest (quotient left right) (value left / value right) := by
  have nearest := isNearest_nearest (units left) positive
  rwa [← div_div_div_cancel_right₀ scale_pos.ne'] at nearest

theorem one_le_value_powerOfTen (power : Nat) : 1 ≤ value (powerOfTen power) := by
  obtain ⟨one, inRange, valueOne⟩ := exists_value_natural (show 1 < 2 ^ 53 by decide)
  rw [Nat.cast_one] at valueOne
  have atLeast : (1 : ℚ) ≤ 10 ^ power := one_le_pow₀ (by norm_num only)
  rw [← valueOne] at atLeast ⊢
  apply value_strictMono.monotone
  exact (isNearest_value inRange).mono (isNearest_powerOfTen power) atLeast

/-- Dividing by a power of ten does not leave the finite magnitudes. -/
theorem quotient_lt_infinite (finite : left < infinite) (power : Nat) :
    quotient left (powerOfTen power) < infinite := by
  have atLeast := one_le_value_powerOfTen power
  have positive : 0 < units (powerOfTen power) := by
    rw [value, le_div_iff₀ scale_pos, one_mul] at atLeast
    exact_mod_cast scale_pos.trans_le atLeast
  apply (isNearest_quotient left positive).lt_infinite
  refine lt_of_le_of_lt ?_ (value_lt_limit finite)
  rw [div_le_iff₀ (zero_lt_one.trans_le atLeast)]
  exact le_mul_of_one_le_right (value_nonneg left) atLeast

theorem power_le_maxPower {coefficient power : Nat} (positive : 0 < coefficient)
    (atMost : (coefficient * 10 ^ power : ℚ) ≤ 2 ^ 1024 - 2 ^ 973) : power ≤ maxPower := by
  by_contra high
  have limit : ((2 ^ 1024 : Nat) : ℚ) ≤ (10 ^ 309 : Nat) := Nat.cast_le.mpr (by decide +kernel)
  rw [Nat.cast_pow, Nat.cast_ofNat, Nat.cast_pow, Nat.cast_ofNat] at limit
  have atLeast : (1 : ℚ) ≤ coefficient := by exact_mod_cast positive
  have margin : (0 : ℚ) < 2 ^ 973 := by positivity
  refine absurd ?_ (not_le_of_gt (sub_lt_self ((2 : ℚ) ^ 1024) margin))
  calc (2 : ℚ) ^ 1024
    _ ≤ 10 ^ 309 := limit
    _ ≤ 10 ^ power := pow_le_pow_right₀ (by norm_num only) (Nat.not_le.mp high)
    _ ≤ coefficient * 10 ^ power := le_mul_of_one_le_left (by positivity) atLeast
    _ ≤ 2 ^ 1024 - 2 ^ 973 := atMost

/-- The product of a coefficient and a power of ten is the result of three roundings. -/
theorem product_lt_infinite {coefficient power : Nat} (positive : 0 < coefficient)
    (atMost : (coefficient * 10 ^ power : ℚ) ≤ 2 ^ 1024 - 2 ^ 973) :
    product (nearest coefficient 1) (powerOfTen power) < infinite := by
  apply (isNearest_product _ _).lt_infinite
  have coefficientAtLeast : (1 : ℚ) ≤ coefficient := by exact_mod_cast positive
  have powerAtLeast : (1 : ℚ) ≤ 10 ^ power := one_le_pow₀ (by norm_num only)
  have first := (isNearest_natural coefficient).value_le coefficientAtLeast
  have second := (isNearest_powerOfTen power).value_le powerAtLeast
  have whole : (2 : ℚ) ^ 1024 - 2 ^ 973 = (2 ^ 54 - 8) * 2 ^ 970 := by
    have greatest : (2 : ℚ) ^ 1024 = 2 ^ 54 * 2 ^ 970 := pow_add 2 54 970
    have last : (2 : ℚ) ^ 973 = 2 ^ 3 * 2 ^ 970 := pow_add 2 3 970
    rw [greatest, last, ← sub_mul]
    norm_num only
  rw [whole] at atMost
  calc value (nearest coefficient 1) * value (powerOfTen power)
    _ ≤ coefficient * (1 + 1 / 2 ^ 53) * (10 ^ power * (1 + 1 / 2 ^ 53)) :=
      mul_le_mul first second (value_nonneg _) (by positivity)
    _ = coefficient * 10 ^ power * (1 + 1 / 2 ^ 53) ^ 2 := by ring
    _ ≤ (2 ^ 54 - 8) * 2 ^ 970 * (1 + 1 / 2 ^ 53) ^ 2 :=
      mul_le_mul_of_nonneg_right atMost (by positivity)
    _ < limit := by
      rw [limit, mul_right_comm]
      exact mul_lt_mul_of_pos_right (by norm_num only) (by positivity)

theorem natural_lt_limit {natural : Nat} (fits : natural ≤ Text.nat64Max) :
    (natural : ℚ) < limit := by
  have small : natural < 2 ^ 64 := Nat.lt_of_le_of_lt fits (by decide)
  calc (natural : ℚ)
    _ < 2 ^ 64 := by exact_mod_cast small
    _ ≤ 2 ^ 970 := pow_le_pow_right₀ (by norm_num only) (by decide)
    _ ≤ limit := le_mul_of_one_le_left (by positivity) (by norm_num only)

/-- A decimal is scaled to a finite magnitude unless its value is next to `2 ^ 1024`. -/
theorem scaledDecimal_lt_infinite {decimal : Decimal}
    (fits : decimal.coefficient ≤ Text.nat64Max) (atMost : decimal.value ≤ 2 ^ 1024 - 2 ^ 973) :
    scaledDecimal decimal < infinite := by
  have coefficientFinite : nearest decimal.coefficient 1 < infinite :=
    (isNearest_natural _).lt_infinite (natural_lt_limit fits)
  simp only [scaledDecimal]
  split
  · decide
  next nonzero =>
  have positive : 0 < decimal.coefficient := Nat.pos_of_ne_zero (by simpa using nonzero)
  split
  next natural =>
    obtain ⟨power, exponent⟩ := Int.eq_ofNat_of_zero_le natural
    rw [Decimal.value, exponent, zpow_natCast] at atMost
    rw [exponent, Int.natAbs_natCast, if_pos (power_le_maxPower positive atMost)]
    exact product_lt_infinite positive atMost
  split
  · exact quotient_lt_infinite coefficientFinite _
  split
  · exact quotient_lt_infinite (quotient_lt_infinite coefficientFinite _) _
  · decide

end Double

end Template
