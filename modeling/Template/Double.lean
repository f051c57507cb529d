import Template.Decimal

/-!
# Binary floating-point numbers

Numbers of the format binary64 without NaN, kept as a sign and a magnitude. The
magnitude is the pattern of the 63 bits below the sign, so magnitudes are ordered
as the numbers they stand for, and the greatest one is infinity. All conversions
are exact arithmetic on natural numbers: `Double.nearest` rounds a quotient to the
nearest magnitude, the even one of two equally near.
-/

namespace Template

/-- The quotient rounded to the nearest natural number, the even one of two
equally near. -/
def roundDiv (numerator denominator : Nat) : Nat :=
  let quotient := numerator / denominator
  let twice := 2 * (numerator % denominator)
  if twice < denominator then quotient
  else if denominator < twice then quotient + 1
  else quotient + quotient % 2

namespace Double

/-- The number of magnitudes in a binade, which is `2 ^ 52`. -/
def binade : Nat := 0x10000000000000

/-- The magnitude of infinity. -/
def infinite : Nat := 0x7FF * binade

/-- A magnitude counts in units of `2 ^ -1074` after scaling by `2 ^ excess`. -/
def excess (magnitude : Nat) : Nat :=
  magnitude / binade - 1

/-- The integer that a magnitude multiplies its unit by. -/
def significand (magnitude : Nat) : Nat :=
  if magnitude < binade then magnitude else magnitude % binade + binade

/-- The value of a finite magnitude in units of `2 ^ -1074`. -/
def units (magnitude : Nat) : Nat :=
  significand magnitude <<< excess magnitude

/-- The number of units of `2 ^ -1074` in one. -/
def scale : Nat := 1 <<< 1074

/-- The magnitude nearest to a quotient. -/
def nearest (numerator denominator : Nat) : Nat :=
  let scaled := numerator * scale
  let excess := (scaled / denominator).log2 - 52
  min infinite (excess * binade + roundDiv scaled (denominator <<< excess))

/-- The magnitude nearest to a decimal. Decimals far outside the range of finite
magnitudes are decided by their first digit alone. -/
def nearestDecimal (decimal : Decimal) : Nat :=
  if decimal.coefficient == 0 then 0
  else if 400 < decimal.leading then infinite
  else if decimal.leading < -400 then 0
  else if 0 ≤ decimal.exponent then
    nearest (decimal.coefficient * Nat.pow 10 decimal.exponent.toNat) 1
  else
    nearest decimal.coefficient (Nat.pow 10 (-decimal.exponent).toNat)

/-- The magnitude nearest to the product of two finite magnitudes. -/
def product (left right : Nat) : Nat :=
  nearest (units left * units right) (scale * scale)

/-- The magnitude nearest to the quotient of two finite magnitudes. -/
def quotient (left right : Nat) : Nat :=
  nearest (units left) (units right)

/-- The magnitude nearest to a power of ten. -/
def powerOfTen (power : Nat) : Nat := nearest (Nat.pow 10 power) 1

/-- The greatest power of ten that is a finite magnitude. -/
def maxPower : Nat := 308

/-- The magnitude of a decimal as its coefficient times or over a power of ten, where
all of them are rounded to magnitudes. A power that is not finite is infinite as a
factor; as a divisor it is divided by in two steps, and two are enough to get to zero
from a coefficient of 64 bits. -/
def scaledDecimal (decimal : Decimal) : Nat :=
  let coefficient := nearest decimal.coefficient 1
  let power := decimal.exponent.natAbs
  if decimal.coefficient == 0 then 0
  else if 0 ≤ decimal.exponent then
    if power ≤ maxPower then product coefficient (powerOfTen power) else infinite
  else if power ≤ maxPower then quotient coefficient (powerOfTen power)
  else if power ≤ 2 * maxPower then
    quotient (quotient coefficient (powerOfTen maxPower)) (powerOfTen (power - maxPower))
  else 0

end Double

/-- A floating-point number: a sign and a magnitude up to infinity. -/
structure Double where
  negative : Bool
  magnitude : Nat
  magnitude_le : magnitude ≤ Double.infinite
  deriving DecidableEq, Repr

namespace Double

theorem nearest_le_infinite (numerator denominator : Nat) :
    nearest numerator denominator ≤ infinite :=
  Nat.min_le_left _ _

theorem nearestDecimal_le_infinite (decimal : Decimal) :
    nearestDecimal decimal ≤ infinite := by
  simp only [nearestDecimal]
  split
  · exact Nat.zero_le _
  · split
    · exact Nat.le_refl _
    · split
      · exact Nat.zero_le _
      · split <;> exact nearest_le_infinite _ _

theorem scaledDecimal_le_infinite (decimal : Decimal) :
    scaledDecimal decimal ≤ infinite := by
  simp only [scaledDecimal]
  split
  · exact Nat.zero_le _
  · split
    · split
      · exact nearest_le_infinite _ _
      · exact Nat.le_refl _
    · split
      · exact nearest_le_infinite _ _
      · split
        · exact nearest_le_infinite _ _
        · exact Nat.zero_le _

/-- The number nearest to a decimal. -/
def ofDecimal (negative : Bool) (decimal : Decimal) : Double :=
  ⟨negative, nearestDecimal decimal, nearestDecimal_le_infinite decimal⟩

/-- The number found by scaling the coefficient of a decimal. -/
def ofScaled (negative : Bool) (decimal : Decimal) : Double :=
  ⟨negative, scaledDecimal decimal, scaledDecimal_le_infinite decimal⟩

/-- The number nearest to an integer; zero is positive. -/
def ofInt (value : Int) : Double :=
  ⟨decide (value < 0), nearest value.natAbs 1, nearest_le_infinite _ _⟩

/-- Change the sign. -/
def neg (number : Double) : Double :=
  { number with negative := !number.negative }

/-- Whether a number is finite. -/
def isFinite (number : Double) : Bool :=
  number.magnitude < infinite

/-- The 64 bits of a number. -/
def bits (number : Double) : Nat :=
  (if number.negative then 0x8000000000000000 else 0) + number.magnitude

end Double

end Template
