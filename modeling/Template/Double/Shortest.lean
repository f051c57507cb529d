import Template.Double

/-!
# The text of a number

A finite number is written with the fewest digits that read back to it, and of
those decimals the nearest to it. The digits are found by exact arithmetic: for
each count of digits the two neighbours of the number on that decimal grid are
read back. The text follows the rule of JavaScript: positional notation from
`1e-6` up to `1e21`, scientific notation with a signed exponent elsewhere, and no
sign on zero.
-/

namespace Template.Double

/-- The power of ten that the first digit of a finite nonzero magnitude counts. -/
def leadingPower (magnitude : Nat) : Int :=
  (Nat.toDigits 10 (units magnitude * Nat.pow 10 400 / scale)).length - 401

/-- Whether a decimal is rounded to a magnitude. -/
def readsBack (magnitude : Nat) (decimal : Decimal) : Bool :=
  nearestDecimal decimal == magnitude

/-- The nearer of a magnitude's two neighbours among the multiples of a power of
ten that reads back, the greater one of two equally near. -/
def onGrid? (magnitude : Nat) (power : Int) : Option Decimal :=
  let (numerator, denominator) :=
    if 0 ≤ power then (units magnitude, scale * Nat.pow 10 power.toNat)
    else (units magnitude * Nat.pow 10 (-power).toNat, scale)
  let lower : Decimal := ⟨numerator / denominator, power⟩
  let upper : Decimal := ⟨numerator / denominator + 1, power⟩
  if 2 * (numerator % denominator) < denominator then
    [lower, upper].find? (readsBack magnitude)
  else
    [upper, lower].find? (readsBack magnitude)

/-- The value of a finite magnitude as a decimal, digit for digit. -/
def exactDecimal (magnitude : Nat) : Decimal :=
  ⟨units magnitude * Nat.pow 5 1074, -1074⟩

/-- The decimal with the fewest digits, up to seventeen, that reads back. -/
def shortest (magnitude : Nat) : Decimal :=
  ((List.range 17).findSome? fun count : Nat =>
    onGrid? magnitude (leadingPower magnitude - count)).getD (exactDecimal magnitude)

/-- Digits without the zeros they end with. -/
def dropZeros (digits : List Char) : List Char :=
  (digits.reverse.dropWhile (· == '0')).reverse

/-- The digits with a point after as many of them as `point` says, filled with
zeros on either side. -/
def positional (digits : List Char) (point : Int) : List Char :=
  if point ≤ 0 then
    '0' :: '.' :: (List.replicate (-point).toNat '0' ++ digits)
  else if digits.length ≤ point.toNat then
    digits ++ List.replicate (point.toNat - digits.length) '0'
  else
    digits.take point.toNat ++ '.' :: digits.drop point.toNat

/-- The digits with a point after the first and the power of ten that it counts. -/
def scientific (digits : List Char) (power : Int) : List Char :=
  digits.take 1 ++ (if digits.length ≤ 1 then [] else '.' :: digits.drop 1) ++
    'e' :: (if power < 0 then '-' else '+') :: Nat.toDigits 10 power.natAbs

/-- The least power of ten of a first digit that is written positionally. -/
def positionalFrom : Int := -6

/-- The least power of ten of a first digit above those written positionally. -/
def positionalBelow : Int := 21

/-- The text of a decimal. -/
def decimalText (decimal : Decimal) : List Char :=
  let digits := dropZeros decimal.digits
  let power := decimal.leading
  if positionalFrom ≤ power ∧ power < positionalBelow then positional digits (power + 1)
  else scientific digits power

/-- The text of a number. -/
def text (number : Double) : String :=
  let body :=
    if number.magnitude == 0 then ['0']
    else if number.magnitude == infinite then "Infinity".toList
    else decimalText (shortest number.magnitude)
  String.ofList (if number.negative && number.magnitude != 0 then '-' :: body else body)

end Template.Double
