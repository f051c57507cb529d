import Template.Text.Digits

/-!
# Decimal numbers

A decimal is a coefficient times a power of ten. `Decimal.read?` reads the usual
notation: digits with an optional point, at least one digit in all, and an
optional exponent.
-/

namespace Template

/-- The number `coefficient * 10 ^ exponent`. -/
structure Decimal where
  coefficient : Nat
  exponent : Int
  deriving DecidableEq, Repr

namespace Decimal

open Template.Text

/-- The exponent written at the end of a decimal, zero when nothing is written. -/
def exponent? (text : List Char) : Option Int :=
  match text with
  | [] => some 0
  | mark :: rest => if mark == 'e' || mark == 'E' then signed? 10 rest else none

/-- Read an unsigned decimal that takes up the whole text. -/
def read? (text : List Char) : Option Decimal :=
  let whole := text.takeWhile Char.isDigit
  let (fraction, rest) :=
    match text.dropWhile Char.isDigit with
    | '.' :: rest => (rest.takeWhile Char.isDigit, rest.dropWhile Char.isDigit)
    | rest => ([], rest)
  match natural? 10 (whole ++ fraction), exponent? rest with
  | some coefficient, some exponent => some ⟨coefficient, exponent - fraction.length⟩
  | _, _ => none

/-- The decimal digits of the coefficient. -/
def digits (decimal : Decimal) : List Char :=
  Nat.toDigits 10 decimal.coefficient

/-- The power of ten that the first digit counts. -/
def leading (decimal : Decimal) : Int :=
  decimal.digits.length - 1 + decimal.exponent

end Decimal

end Template
