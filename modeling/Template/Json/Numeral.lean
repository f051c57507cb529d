import Template.Double

/-!
# Numerals

A numeral is the spelling of a number in JSON. The double that it is read as is found by
scaling: `Numeral.scaled` keeps the digits that fit in 64 bits and multiplies them by a
power of ten. This rounds more than once, so the result need not be the double nearest to
the number, and it may be infinite where a number is just below the greatest finite double.
-/

namespace Template

/-- The spelling of a number: a sign, the digits before and after the point, and the
exponent. -/
structure Numeral where
  negative : Bool
  whole : List Char
  fraction : Option (List Char)
  exponent : Option Int
  deriving DecidableEq, Repr

namespace Numeral

/-- The digits after the point. -/
def places (numeral : Numeral) : List Char := numeral.fraction.getD []

/-- The number that a numeral spells, without its sign. -/
def decimal (numeral : Numeral) : Decimal where
  coefficient := (Text.natural? 10 (numeral.whole ++ numeral.places)).getD 0
  exponent := numeral.exponent.getD 0 - numeral.places.length

/-- Append digits to a significand while it fits in 64 bits. The result is the
significand and the number of digits that are left out, which are all digits from the
first that does not fit. -/
def extend (significand : Nat) : List Char → Nat × Nat
  | [] => (significand, 0)
  | char :: rest =>
    let longer := 10 * significand + (Text.digit? 10 char).getD 0
    if longer ≤ Text.nat64Max then extend longer rest else (significand, rest.length + 1)

/-- The decimal that a numeral is cut down to. A digit that is left out before the point
still counts as a power of ten; one that is left out after it does not count at all. -/
def shortened (numeral : Numeral) : Decimal :=
  let (whole, omitted) := extend 0 numeral.whole
  let (coefficient, unread) := extend whole numeral.places
  { coefficient
    exponent := numeral.exponent.getD 0 + omitted - (numeral.places.length - unread : Nat) }

/-- The double found by scaling the first digits of a numeral. -/
def scaled (numeral : Numeral) : Double :=
  .ofScaled numeral.negative numeral.shortened

/-- The integer that a numeral without point and exponent spells, if it has 64 bits; the
negative zero is none. -/
def integer? (numeral : Numeral) : Option Int :=
  let value := numeral.decimal.coefficient
  if numeral.fraction.isSome || numeral.exponent.isSome then none
  else if numeral.negative then
    if value ≠ 0 ∧ value ≤ 0x8000000000000000 then some (-value) else none
  else if value ≤ Text.nat64Max then some value else none

end Numeral

end Template
