import Mathlib.Data.Nat.Factorization.Basic
import Mathlib.Tactic.NormNum
import Template.Double.Shortest
import Template.Proofs.Double.Nearest

/-!
# The shortest decimal that reads back

The decimals that are rounded to a magnitude lie together around its value
(`IsNearest.between`), so of all decimals with the same power of ten it is enough to look at
the two neighbours of the value.  Seventeen digits are always enough, because neighbours with
that many digits are closer to the value than half of the distance to the next number of the
format (`onGrid?_seventeen`).

The decimal that is found is specified without reference to the search (`IsShortest`): it reads
back, no decimal with fewer digits does, and among those with as many digits none is closer.
-/

namespace Template.Double

variable {magnitude : Nat} {number : ℚ} {decimal other : Decimal}

/-! ## Decimals that read back -/

theorem readsBack_iff : readsBack magnitude decimal = true ↔ IsNearest magnitude decimal.value := by
  rw [readsBack, beq_iff_eq]
  constructor
  · rintro rfl
    exact isNearest_nearestDecimal decimal
  · exact (isNearest_nearestDecimal decimal).unique

/-- What is rounded to a magnitude has no gaps. -/
theorem IsNearest.between {least greatest : ℚ} (low : IsNearest magnitude least)
    (high : IsNearest magnitude greatest) (atLeast : least ≤ decimal.value)
    (atMost : decimal.value ≤ greatest) : IsNearest magnitude decimal.value := by
  have rounded := isNearest_nearestDecimal decimal
  have same : nearestDecimal decimal = magnitude :=
    le_antisymm (rounded.mono high atMost) (low.mono rounded atLeast)
  rwa [same] at rounded

/-- A decimal reads back and is at least as close to the value as another one. -/
def ReadsCloser (magnitude : Nat) (decimal other : Decimal) : Prop :=
  IsNearest magnitude decimal.value ∧
    |decimal.value - value magnitude| ≤ |other.value - value magnitude|

/-- On the way from a decimal that reads back to the value every decimal reads back, and is
closer. -/
theorem IsNearest.toward (nearest : IsNearest magnitude other.value)
    (between : other.value ≤ decimal.value ∧ decimal.value ≤ value magnitude ∨
      value magnitude ≤ decimal.value ∧ decimal.value ≤ other.value) :
    ReadsCloser magnitude decimal other := by
  have whole := isNearest_value nearest.le_infinite
  rcases between with ⟨beyond, below⟩ | ⟨above, beyond⟩
  · refine ⟨nearest.between whole beyond below, ?_⟩
    rw [abs_of_nonpos (by linarith), abs_of_nonpos (by linarith)]
    linarith
  · refine ⟨whole.between nearest above beyond, ?_⟩
    rw [abs_of_nonneg (by linarith), abs_of_nonneg (by linarith)]
    linarith

/-- A value and the one after it are at most `2 ^ 53` times their distance. -/
theorem value_le_steps (magnitude : Nat) :
    value (magnitude + 1) ≤ 2 ^ 53 * (value (magnitude + 1) - value magnitude) := by
  have scalePositive := scale_pos
  obtain ⟨multiple, notLast, normal, place⟩ := exists_grid magnitude
  generalize excess magnitude = step at normal place
  have atMost : (multiple : ℚ) + 1 ≤ 2 ^ 53 := by
    have notLastCast : multiple + 1 ≤ 2 ^ 53 := by
      have twice : 2 * binade = 2 ^ 53 := by decide
      omega
    exact_mod_cast notLastCast
  have here : value magnitude = multiple * 2 ^ step / scale := by
    rw [place, value_grid notLast.le normal]
  have next : value (magnitude + 1) = (multiple + 1) * 2 ^ step / scale := by
    rw [place, Nat.add_assoc, value_grid notLast (by omega), Nat.cast_succ]
  have distance : value (magnitude + 1) - value magnitude = 2 ^ step / scale := by
    rw [here, next]
    ring
  rw [distance, next, mul_div_assoc]
  exact mul_le_mul_of_nonneg_right atMost (div_pos (by positivity) scalePositive).le

/-- A number is rounded to a magnitude if it is so close to its value that seventeen digits
tell the difference. -/
theorem isNearest_of_close (positive : 0 < magnitude) (finite : magnitude < infinite)
    (close : 2 * 10 ^ 16 * |number - value magnitude| ≤ value magnitude) :
    IsNearest magnitude number := by
  have valuePositive : 0 < value magnitude := by
    rw [← value_zero]
    exact value_strictMono positive
  rcases le_total (value magnitude) number with above | below
  · rw [abs_of_nonneg (sub_nonneg.mpr above)] at close
    have steps := value_le_steps magnitude
    have next := value_strictMono (Nat.lt_succ_self magnitude)
    exact (isNearest_between finite above (by linarith)).1 (by linarith)
  · rw [abs_of_nonpos (sub_nonpos.mpr below)] at close
    obtain ⟨before, rfl⟩ := Nat.exists_eq_add_of_le' (show 1 ≤ magnitude from positive)
    have steps := value_le_steps before
    have previous := value_strictMono (Nat.lt_succ_self before)
    exact (isNearest_between finite.le (by linarith) below).2.1 (by linarith)

/-! ## Grids of decimals -/

/-- A decimal with a given power of ten that reads back, is next to the value and is not further
from it than any other one with this power that reads back. -/
structure OnGrid (magnitude : Nat) (power : Int) (decimal : Decimal) : Prop where
  exponent : decimal.exponent = power
  nearest : IsNearest magnitude decimal.value
  le_next : decimal.value ≤ value magnitude + 10 ^ power
  closest : ∀ other : Decimal, other.exponent = power → IsNearest magnitude other.value →
    |decimal.value - value magnitude| ≤ |other.value - value magnitude|

/-- A value in steps of a grid is a quotient of natural numbers, and its rest decides which
neighbour is tried first. -/
theorem onGrid?_division (magnitude : Nat) (power : Int) :
    ∃ numerator denominator : Nat, 0 < denominator ∧
      value magnitude * denominator = numerator * 10 ^ power ∧
      onGrid? magnitude power =
        if 2 * (numerator % denominator) < denominator then
          [⟨numerator / denominator, power⟩, ⟨numerator / denominator + 1, power⟩].find?
            (readsBack magnitude)
        else
          [⟨numerator / denominator + 1, power⟩, ⟨numerator / denominator, power⟩].find?
            (readsBack magnitude) := by
  have scalePositive : 0 < scale := by decide +kernel
  have valueScale : value magnitude * scale = units magnitude :=
    div_mul_cancel₀ _ scale_pos.ne'
  by_cases natural : 0 ≤ power
  · refine ⟨units magnitude, scale * Nat.pow 10 power.toNat,
      Nat.mul_pos scalePositive (Nat.pow_pos (by decide)), ?_, ?_⟩
    · obtain ⟨exponent, rfl⟩ := Int.eq_ofNat_of_zero_le natural
      rw [Int.toNat_natCast, Nat.cast_mul, ← mul_assoc, valueScale, cast_powerOfTen]
    · rw [onGrid?, if_pos natural]
  · refine ⟨units magnitude * Nat.pow 10 (-power).toNat, scale, scalePositive, ?_, ?_⟩
    · obtain ⟨exponent, exponentEq⟩ := Int.eq_ofNat_of_zero_le (show 0 ≤ -power by omega)
      rw [exponentEq, Int.toNat_natCast, ← neg_neg power, exponentEq, zpow_neg, Nat.cast_mul,
        cast_powerOfTen, valueScale, mul_inv_cancel_right₀ (by positivity)]
    · rw [onGrid?, if_neg natural]

/-- The neighbours of a value on a grid, and the order in which they are tried. -/
theorem exists_neighbours (magnitude : Nat) (power : Int) :
    ∃ multiple : Nat,
      let lower : Decimal := ⟨multiple, power⟩
      let upper : Decimal := ⟨multiple + 1, power⟩
      lower.value ≤ value magnitude ∧ value magnitude < upper.value ∧
        (value magnitude - lower.value < upper.value - value magnitude ∧
            onGrid? magnitude power = [lower, upper].find? (readsBack magnitude) ∨
          upper.value - value magnitude ≤ value magnitude - lower.value ∧
            onGrid? magnitude power = [upper, lower].find? (readsBack magnitude)) := by
  obtain ⟨numerator, denominator, positive, valueEq, onGridEq⟩ := onGrid?_division magnitude power
  refine ⟨numerator / denominator, ?_⟩
  have split := Nat.div_add_mod' numerator denominator
  have small := Nat.mod_lt numerator positive
  generalize numerator / denominator = multiple at split onGridEq ⊢
  generalize numerator % denominator = rest at split small onGridEq
  have positiveCast : (0 : ℚ) < denominator := by exact_mod_cast positive
  obtain ⟨unit, unitPositive, unitEq⟩ : ∃ unit : ℚ, 0 < unit ∧ unit * denominator = 10 ^ power :=
    ⟨10 ^ power / denominator, div_pos (by positivity) positiveCast,
      div_mul_cancel₀ _ positiveCast.ne'⟩
  -- In these units a step of the grid is the denominator, and the value is beyond its lower
  -- neighbour by the rest.
  have lowerEq : (⟨multiple, power⟩ : Decimal).value = value magnitude - unit * rest := by
    have valueUnit : value magnitude = numerator * unit := by
      apply mul_right_cancel₀ positiveCast.ne'
      rw [valueEq, ← unitEq, mul_assoc]
    have splitCast : (multiple : ℚ) * denominator + rest = numerator := by exact_mod_cast split
    rw [Decimal.value, valueUnit, ← splitCast, ← unitEq]
    ring
  have upperEq : (⟨multiple + 1, power⟩ : Decimal).value =
      value magnitude + unit * (denominator - rest) := by
    rw [Decimal.value_succ, lowerEq, ← unitEq]
    ring
  have smallCast : (rest : ℚ) < denominator := by exact_mod_cast small
  simp only [lowerEq, upperEq, sub_sub_cancel, add_sub_cancel_left]
  refine ⟨sub_le_self _ (by positivity), lt_add_of_pos_right _ (mul_pos unitPositive (by linarith)),
    ?_⟩
  rw [mul_lt_mul_iff_right₀ unitPositive, mul_le_mul_iff_right₀ unitPositive]
  by_cases nearer : 2 * rest < denominator
  · have nearerCast : 2 * (rest : ℚ) < denominator := by exact_mod_cast nearer
    rw [if_pos nearer] at onGridEq
    exact .inl ⟨by linarith, onGridEq⟩
  · have nearerCast : (denominator : ℚ) ≤ 2 * rest := by exact_mod_cast Nat.le_of_not_lt nearer
    rw [if_neg nearer] at onGridEq
    exact .inr ⟨by linarith, onGridEq⟩

/-- A decimal on a grid that reads back has a neighbour of the value between it and the value,
which reads back too. -/
theorem IsNearest.toward_neighbour {lower upper : Decimal}
    (next : upper = ⟨lower.coefficient + 1, lower.exponent⟩)
    (sameGrid : other.exponent = lower.exponent) (above : lower.value ≤ value magnitude)
    (below : value magnitude ≤ upper.value) (nearest : IsNearest magnitude other.value) :
    ReadsCloser magnitude lower other ∨ ReadsCloser magnitude upper other := by
  have unitPositive : (0 : ℚ) < 10 ^ lower.exponent := by positivity
  have otherEq : other.value = other.coefficient * 10 ^ lower.exponent := by
    rw [Decimal.value, sameGrid]
  rcases Nat.lt_or_ge lower.coefficient other.coefficient with greater | notGreater
  · have beyond : upper.value ≤ other.value := by
      rw [otherEq, next]
      exact mul_le_mul_of_nonneg_right (by exact_mod_cast greater) unitPositive.le
    exact .inr (nearest.toward (.inr ⟨below, beyond⟩))
  · have beyond : other.value ≤ lower.value := by
      rw [otherEq]
      exact mul_le_mul_of_nonneg_right (by exact_mod_cast notGreater) unitPositive.le
    exact .inl (nearest.toward (.inl ⟨beyond, above⟩))

/-- The two neighbours of a value on a grid in the order in which they are tried. -/
structure Neighbours (magnitude : Nat) (power : Int) (first second : Decimal) : Prop where
  exponents : first.exponent = power ∧ second.exponent = power
  le_next : first.value ≤ value magnitude + 10 ^ power ∧
    second.value ≤ value magnitude + 10 ^ power
  nearer : |first.value - value magnitude| ≤ |second.value - value magnitude|
  half : 2 * |first.value - value magnitude| ≤ 10 ^ power
  toward : ∀ other : Decimal, other.exponent = power → IsNearest magnitude other.value →
    ReadsCloser magnitude first other ∨ ReadsCloser magnitude second other

/-- The search on a grid tries the neighbours of the value, the nearer one first. -/
theorem exists_tried (magnitude : Nat) (power : Int) :
    ∃ first second, Neighbours magnitude power first second ∧
      onGrid? magnitude power = [first, second].find? (readsBack magnitude) := by
  obtain ⟨multiple, above, below, order⟩ := exists_neighbours magnitude power
  have unitPositive : (0 : ℚ) < 10 ^ power := by positivity
  have step := Decimal.value_succ multiple power
  have toward {other : Decimal} (sameGrid : other.exponent = power) :=
    IsNearest.toward_neighbour rfl sameGrid above below.le
  have toLower := abs_of_nonpos (sub_nonpos.mpr above)
  have toUpper := abs_of_nonneg (sub_nonneg.mpr below.le)
  rcases order with ⟨closer, onGridEq⟩ | ⟨closer, onGridEq⟩
  · refine ⟨_, _, ⟨⟨rfl, rfl⟩, ⟨by linarith, by linarith⟩, ?_, ?_, fun _ => toward⟩, onGridEq⟩
    · rw [toLower, toUpper]
      linarith
    · rw [toLower]
      linarith
  · refine ⟨_, _, ⟨⟨rfl, rfl⟩, ⟨by linarith, by linarith⟩, ?_, ?_, ?_⟩, onGridEq⟩
    · rw [toLower, toUpper]
      linarith
    · rw [toUpper]
      linarith
    · intro other sameGrid reads
      exact (toward sameGrid reads).symm

/-- The search on a grid finds the closest decimal that reads back. -/
theorem onGrid_of_onGrid? {power : Int}
    (found : onGrid? magnitude power = some decimal) : OnGrid magnitude power decimal := by
  obtain ⟨first, second, neighbours, tried⟩ := exists_tried magnitude power
  rw [tried, List.find?_cons] at found
  split at found
  next reads =>
    obtain rfl := Option.some.inj found
    refine ⟨neighbours.exponents.1, readsBack_iff.mp reads, neighbours.le_next.1, ?_⟩
    intro other sameGrid nearest
    rcases neighbours.toward other sameGrid nearest with ⟨-, closer⟩ | ⟨-, closer⟩
    · exact closer
    · exact neighbours.nearer.trans closer
  next notReads =>
    obtain ⟨reads, rfl⟩ : readsBack magnitude second = true ∧ second = decimal := by
      simpa using found
    refine ⟨neighbours.exponents.2, readsBack_iff.mp reads, neighbours.le_next.2, ?_⟩
    intro other sameGrid nearest
    rcases neighbours.toward other sameGrid nearest with ⟨firstNearest, -⟩ | ⟨-, closer⟩
    · rw [← readsBack_iff, notReads] at firstNearest
      contradiction
    · exact closer

/-- The search on a grid finds a decimal if one reads back. -/
theorem onGrid?_ne_none (nearest : IsNearest magnitude other.value) :
    onGrid? magnitude other.exponent ≠ none := by
  obtain ⟨first, second, neighbours, tried⟩ := exists_tried magnitude other.exponent
  intro nothing
  rw [tried, List.find?_eq_none] at nothing
  rcases neighbours.toward other rfl nearest with ⟨reads, -⟩ | ⟨reads, -⟩
  · exact nothing first (by simp) (readsBack_iff.mpr reads)
  · exact nothing second (by simp) (readsBack_iff.mpr reads)

/-! ## Counts of digits -/

/-- The first digit of a quotient, from the digits of the quotient after a shift. -/
theorem quotient_bounds {numerator denominator shift : Nat} (positive : 0 < denominator)
    (nonzero : numerator * Nat.pow 10 shift / denominator ≠ 0) :
    ∃ count : Nat,
      (Nat.toDigits 10 (numerator * Nat.pow 10 shift / denominator)).length = count + 1 ∧
      (10 : ℚ) ^ (count - shift : ℤ) ≤ numerator / denominator ∧
      (numerator : ℚ) / denominator < 10 ^ (count + 1 - shift : ℤ) := by
  obtain ⟨count, length, atLeast, below⟩ := Decimal.exists_length_toDigits nonzero
  rw [Nat.le_div_iff_mul_le positive] at atLeast
  rw [Nat.div_lt_iff_lt_mul positive] at below
  have positiveCast : (0 : ℚ) < denominator := by exact_mod_cast positive
  have shiftPositive : (0 : ℚ) < 10 ^ (shift : ℤ) := by positivity
  refine ⟨count, length, ?_, ?_⟩
  · rw [zpow_sub₀ (by norm_num), div_le_div_iff₀ shiftPositive positiveCast, ← cast_powerOfTen,
      zpow_natCast]
    exact_mod_cast atLeast
  · rw [zpow_sub₀ (by norm_num), div_lt_div_iff₀ positiveCast shiftPositive, ← cast_powerOfTen,
      ← Nat.cast_succ, zpow_natCast]
    exact_mod_cast below

/-- The first digit of a value. -/
theorem leadingPower_bounds (positive : 0 < magnitude) :
    10 ^ leadingPower magnitude ≤ value magnitude ∧
      value magnitude < 10 ^ (leadingPower magnitude + 1) := by
  have scalePositive : 0 < scale := by decide +kernel
  have bound : scale ≤ Nat.pow 10 400 := by decide +kernel
  have unitsPositive : 0 < units magnitude := Nat.zero_lt_of_lt (units_strictMono positive)
  have nonzero : units magnitude * Nat.pow 10 400 / scale ≠ 0 :=
    (Nat.div_pos (bound.trans (Nat.le_mul_of_pos_left _ unitsPositive)) scalePositive).ne'
  obtain ⟨count, length, atLeast, below⟩ := quotient_bounds scalePositive nonzero
  have leadingEq : leadingPower magnitude = count - (400 : Nat) := by
    rw [leadingPower, length]
    omega
  have nextEq : leadingPower magnitude + 1 = count + 1 - (400 : Nat) := by omega
  rw [nextEq, leadingEq]
  exact ⟨atLeast, below⟩

/-- Seventeen digits are enough. -/
theorem onGrid?_seventeen (positive : 0 < magnitude) (finite : magnitude < infinite) :
    onGrid? magnitude (leadingPower magnitude - 16) ≠ none := by
  obtain ⟨first, second, neighbours, tried⟩ :=
    exists_tried magnitude (leadingPower magnitude - 16)
  have close : 2 * 10 ^ 16 * |first.value - value magnitude| ≤ value magnitude := by
    calc 2 * 10 ^ 16 * |first.value - value magnitude|
      _ = 10 ^ 16 * (2 * |first.value - value magnitude|) := by ring
      _ ≤ 10 ^ 16 * 10 ^ (leadingPower magnitude - 16) :=
        mul_le_mul_of_nonneg_left neighbours.half (by positivity)
      _ = 10 ^ leadingPower magnitude := by
        rw [← zpow_ofNat, ← zpow_add₀ (by norm_num)]
        congr 1
        omega
      _ ≤ value magnitude := (leadingPower_bounds positive).1
  have reads := readsBack_iff.mpr (isNearest_of_close positive finite close)
  rw [tried, List.find?_cons_of_pos reads]
  exact Option.some_ne_none _

/-- The search over the counts of digits ends at the first one that is enough. -/
theorem exists_count (positive : 0 < magnitude) (finite : magnitude < infinite) :
    ∃ count : Nat, onGrid? magnitude (leadingPower magnitude - count) = some (shortest magnitude) ∧
      ∀ fewer < count, onGrid? magnitude (leadingPower magnitude - fewer) = none := by
  rw [shortest]
  cases search : (List.range 17).findSome? fun count : Nat =>
      onGrid? magnitude (leadingPower magnitude - count) with
  | none =>
    rw [List.findSome?_eq_none_iff] at search
    exact absurd (search 16 (by decide)) (onGrid?_seventeen positive finite)
  | some decimal =>
    obtain ⟨before, count, after, rangeEq, found, nothing⟩ := List.findSome?_eq_some_iff.mp search
    rw [List.range_eq_range', List.range'_eq_append_iff] at rangeEq
    obtain ⟨length, -, rfl, afterEq⟩ := rangeEq
    obtain ⟨rfl, -⟩ := List.range'_eq_cons_iff.mp afterEq.symm
    refine ⟨_, found, ?_⟩
    intro fewer less
    exact nothing fewer (List.mem_range'_1.mpr ⟨Nat.zero_le _, by omega⟩)

/-! ## The shortest decimal -/

/-- The rule of JavaScript for the digits of a number: the decimal reads back, no other one that
does has fewer digits, and none with as many digits is closer. -/
structure IsShortest (magnitude : Nat) (decimal : Decimal) : Prop where
  nonzero : decimal.coefficient ≠ 0
  nearest : IsNearest magnitude decimal.value
  fewest : ∀ other : Decimal, other.coefficient ≠ 0 → IsNearest magnitude other.value →
    decimal.digits.length ≤ other.digits.length
  closest : ∀ other : Decimal, other.coefficient ≠ 0 → IsNearest magnitude other.value →
    other.digits.length = decimal.digits.length →
      |decimal.value - value magnitude| ≤ |other.value - value magnitude|

/-- Zeros at the end of the digits are factors of ten. -/
theorem toDigits_mul_pow {number : Nat} (positive : 0 < number) (zeros : Nat) :
    Nat.toDigits 10 (number * 10 ^ zeros) = Nat.toDigits 10 number ++ List.replicate zeros '0' := by
  induction zeros with
  | zero => rw [pow_zero, mul_one, List.replicate_zero, List.append_nil]
  | succ zeros inductionHypothesis =>
    have shifted : number * 10 ^ (zeros + 1) = 10 * (number * 10 ^ zeros) + 0 := by ring
    rw [shifted, ← Nat.toDigits_append_toDigits (by decide) (by positivity) (by decide),
      inductionHypothesis, Nat.toDigits_zero, List.append_assoc, ← List.replicate_succ']

/-- The last digit of a number that ten does not divide is not zero. -/
theorem exists_last_toDigits {number : Nat} (indivisible : ¬ 10 ∣ number) :
    ∃ front last, Nat.toDigits 10 number = front ++ [last] ∧ last ≠ '0' := by
  have lastSmall : number % 10 < 10 := Nat.mod_lt _ (by decide)
  have lastEq : Nat.toDigits 10 (number % 10) = [(number % 10).digitChar] :=
    Nat.toDigits_of_lt_base lastSmall
  have nonzero : (number % 10).digitChar ≠ '0' := by
    have restNonzero : number % 10 ≠ 0 := fun rest => indivisible (Nat.dvd_of_mod_eq_zero rest)
    generalize number % 10 = rest at lastSmall restNonzero
    revert rest
    decide
  rcases Nat.eq_zero_or_pos (number / 10) with zero | positive
  · have same : number % 10 = number := Nat.mod_eq_of_lt (by omega)
    rw [same] at lastEq nonzero
    exact ⟨[], _, lastEq, nonzero⟩
  · refine ⟨Nat.toDigits 10 (number / 10), _, ?_, nonzero⟩
    rw [← lastEq, Nat.toDigits_append_toDigits (by decide) positive lastSmall, Nat.div_add_mod]

theorem dropZeros_append_replicate {digits : List Char} {last : Char} (nonzero : last ≠ '0')
    (zeros : Nat) :
    dropZeros (digits ++ [last] ++ List.replicate zeros '0') = digits ++ [last] := by
  have allZero : ∀ digit ∈ List.replicate zeros '0', (digit == '0') = true := by
    intro digit membership
    rw [List.eq_of_mem_replicate membership, beq_self_eq_true]
  rw [dropZeros, List.reverse_append, List.reverse_replicate, List.dropWhile_append_of_pos allZero,
    List.reverse_concat, List.dropWhile_cons_of_neg (by simpa using nonzero), List.reverse_cons,
    List.reverse_reverse]

/-- Digits without the zeros at the end are those of a decimal with the same value. -/
theorem exists_trimmed (nonzero : decimal.coefficient ≠ 0) :
    ∃ trimmed : Decimal, trimmed.value = decimal.value ∧ trimmed.digits = dropZeros decimal.digits ∧
      trimmed.leading = decimal.leading ∧ ¬ 10 ∣ trimmed.coefficient ∧
      ∃ zeros, decimal.coefficient = trimmed.coefficient * 10 ^ zeros := by
  obtain ⟨zeros, coefficient, indivisible, factored⟩ :=
    Nat.exists_eq_pow_mul_and_not_dvd nonzero 10 (by decide)
  rw [mul_comm] at factored
  have positive : 0 < coefficient := Nat.pos_of_ne_zero (by rintro rfl; simp at indivisible)
  have digitsEq : decimal.digits = Nat.toDigits 10 coefficient ++ List.replicate zeros '0' := by
    rw [Decimal.digits, factored, toDigits_mul_pow positive]
  refine ⟨⟨coefficient, decimal.exponent + zeros⟩, ?_, ?_, ?_, indivisible, zeros, factored⟩
  · rw [Decimal.value, Decimal.value, factored, Nat.cast_mul, Nat.cast_pow, Nat.cast_ofNat,
      zpow_add₀ (by norm_num), zpow_natCast]
    ring
  · obtain ⟨front, last, lastEq, lastNonzero⟩ := exists_last_toDigits indivisible
    rw [digitsEq, Decimal.digits, lastEq, dropZeros_append_replicate lastNonzero]
  · have length : decimal.digits.length = (Nat.toDigits 10 coefficient).length + zeros := by
      rw [digitsEq, List.length_append, List.length_replicate]
    rw [Decimal.leading, Decimal.leading, length, Decimal.digits, Nat.cast_add]
    ring

/-- A decimal that reads back is on the grid for its count of digits, or else it is beyond a
power of ten, which is on the grid for one digit. -/
theorem exists_closer (positive : 0 < magnitude) (nonzero : other.coefficient ≠ 0)
    (nearest : IsNearest magnitude other.value) :
    ∃ closer : Decimal, ∃ count < other.digits.length,
      closer.exponent = leadingPower magnitude - count ∧ ReadsCloser magnitude closer other := by
  obtain ⟨atLeast, below⟩ := leadingPower_bounds positive
  obtain ⟨otherAtLeast, otherBelow⟩ := Decimal.value_bounds nonzero
  have digitsPositive : 0 < other.digits.length := Nat.length_toDigits_pos
  generalize leadingPower magnitude = first at atLeast below
  rcases lt_trichotomy other.leading first with lower | same | higher
  · have valueEq : (⟨1, first⟩ : Decimal).value = 10 ^ first := by
      rw [Decimal.value, Nat.cast_one, one_mul]
    have between : (10 : ℚ) ^ (other.leading + 1) ≤ 10 ^ first :=
      zpow_le_zpow_right₀ (by norm_num) (by omega)
    refine ⟨⟨1, first⟩, 0, digitsPositive, by simp, nearest.toward (.inl ⟨?_, ?_⟩)⟩
    · rw [valueEq]
      exact otherBelow.le.trans between
    · rw [valueEq]
      exact atLeast
  · refine ⟨other, other.digits.length - 1, by omega, ?_, nearest, le_rfl⟩
    rw [← same, Decimal.leading]
    omega
  · have valueEq : (⟨10, first⟩ : Decimal).value = 10 ^ (first + 1) := by
      rw [Decimal.value, zpow_add₀ (by norm_num), zpow_one, Nat.cast_ofNat, mul_comm]
    have between : (10 : ℚ) ^ (first + 1) ≤ 10 ^ other.leading :=
      zpow_le_zpow_right₀ (by norm_num) (by omega)
    refine ⟨⟨10, first⟩, 0, digitsPositive, by simp, nearest.toward (.inr ⟨?_, ?_⟩)⟩
    · rw [valueEq]
      exact below.le
    · rw [valueEq]
      exact between.trans otherAtLeast

/-- The digits after the trimming are not more than the count of the grid, where the neighbour
above the value may be the next power of ten. -/
theorem OnGrid.length_trimmed {trimmed : Decimal} {count zeros : Nat} (positive : 0 < magnitude)
    (onGrid : OnGrid magnitude (leadingPower magnitude - count) decimal)
    (indivisible : ¬ 10 ∣ trimmed.coefficient)
    (factored : decimal.coefficient = trimmed.coefficient * 10 ^ zeros) :
    trimmed.digits.length ≤ count + 1 := by
  have atMost : decimal.coefficient ≤ 10 ^ (count + 1) := by
    have unitPositive : (0 : ℚ) < 10 ^ (leadingPower magnitude - count) := by positivity
    have below := (leadingPower_bounds positive).2
    have next := onGrid.le_next
    have power : (10 : ℚ) ^ (leadingPower magnitude + 1) =
        10 ^ (count + 1) * 10 ^ (leadingPower magnitude - count) := by
      rw [← zpow_natCast, ← zpow_add₀ (by norm_num)]
      congr 1
      push_cast
      ring
    rw [Decimal.value, onGrid.exponent] at next
    rw [power] at below
    have less : (decimal.coefficient : ℚ) < 10 ^ (count + 1) + 1 :=
      lt_of_mul_lt_mul_right (by linarith) unitPositive.le
    have lessNat : decimal.coefficient < 10 ^ (count + 1) + 1 := by exact_mod_cast less
    omega
  have below : trimmed.coefficient < 10 ^ (count + 1) := by
    have notMore : trimmed.coefficient ≤ decimal.coefficient := by
      rw [factored]
      exact Nat.le_mul_of_pos_right _ (by positivity)
    apply lt_of_le_of_ne (notMore.trans atMost)
    intro power
    exact indivisible (power ▸ dvd_pow_self 10 (Nat.succ_ne_zero count))
  exact (Nat.length_toDigits_le_iff (by decide) (Nat.zero_lt_succ _)).mpr below

/-- The digits that are found are the shortest. -/
theorem exists_isShortest (positive : 0 < magnitude) (finite : magnitude < infinite) :
    ∃ decimal, IsShortest magnitude decimal ∧
      decimal.digits = dropZeros (shortest magnitude).digits ∧
      decimal.leading = (shortest magnitude).leading := by
  obtain ⟨count, found, nothing⟩ := exists_count positive finite
  have onGrid := onGrid_of_onGrid? found
  have nonzero : (shortest magnitude).coefficient ≠ 0 := by
    intro zero
    have nearest := onGrid.nearest
    rw [Decimal.value, zero, Nat.cast_zero, zero_mul] at nearest
    exact positive.ne (nearest.unique (isNearest_zero le_rfl (by positivity))).symm
  obtain ⟨trimmed, valueEq, digitsEq, leadingEq, indivisible, zeros, factored⟩ :=
    exists_trimmed nonzero
  have length : trimmed.digits.length ≤ count + 1 :=
    onGrid.length_trimmed positive indivisible factored
  have enough {other : Decimal} (otherNonzero : other.coefficient ≠ 0)
      (nearest : IsNearest magnitude other.value) : ∃ closer : Decimal, ∃ more ≥ count,
        more < other.digits.length ∧ closer.exponent = leadingPower magnitude - more ∧
        ReadsCloser magnitude closer other := by
    obtain ⟨closer, more, less, sameGrid, readsCloser⟩ :=
      exists_closer positive otherNonzero nearest
    refine ⟨closer, more, ?_, less, sameGrid, readsCloser⟩
    apply Nat.le_of_not_lt
    intro fewer
    exact onGrid?_ne_none readsCloser.1 (sameGrid ▸ nothing more fewer)
  refine ⟨trimmed, ⟨?_, ?_, ?_, ?_⟩, digitsEq, leadingEq⟩
  · rintro zero
    rw [zero] at indivisible
    exact indivisible (dvd_zero 10)
  · rw [valueEq]
    exact onGrid.nearest
  · intro other otherNonzero nearest
    obtain ⟨closer, more, notFewer, less, -⟩ := enough otherNonzero nearest
    omega
  · intro other otherNonzero nearest sameLength
    obtain ⟨closer, more, notFewer, less, sameGrid, readsCloser⟩ := enough otherNonzero nearest
    obtain rfl : more = count :=
      le_antisymm (Nat.le_of_lt_succ (less.trans_le (sameLength.trans_le length))) notFewer
    rw [valueEq]
    exact (onGrid.closest closer sameGrid readsCloser.1).trans readsCloser.2

end Template.Double
