/-!
# Digits

Reading natural numbers and integers from their digits in a given base.
-/

namespace Template.Text

/-- The value of a hexadecimal digit of either case. -/
def hexDigit? (char : Char) : Option Nat :=
  let code := char.toNat
  if char.isDigit then some (code - 48)
  else if 97 ≤ code && code ≤ 102 then some (code - 87)
  else if 65 ≤ code && code ≤ 70 then some (code - 55)
  else none

/-- The value of a digit in a base of at most sixteen. -/
def digit? (base : Nat) (char : Char) : Option Nat :=
  (hexDigit? char).filter (· < base)

/-- Read on from a value, digit by digit; `none` at a character that is no digit. -/
def digitsFrom (base : Nat) (value : Nat) : List Char → Option Nat
  | [] => some value
  | char :: rest =>
    match digit? base char with
    | some digit => digitsFrom base (base * value + digit) rest
    | none => none

/-- The number written by one or more digits. -/
def natural? (base : Nat) (digits : List Char) : Option Nat :=
  if digits.isEmpty then none else digitsFrom base 0 digits

/-- The number written by digits that a plus sign may precede. -/
def unsigned? (base : Nat) (text : List Char) : Option Nat :=
  match text with
  | '+' :: digits => natural? base digits
  | digits => natural? base digits

/-- The integer written by digits that a sign may precede. -/
def signed? (base : Nat) (text : List Char) : Option Int :=
  match text with
  | '+' :: digits => (natural? base digits).map Int.ofNat
  | '-' :: digits => (natural? base digits).map fun value => -Int.ofNat value
  | digits => (natural? base digits).map Int.ofNat

/-- The least integer of 64 bits in two's complement. -/
def int64Min : Int := -0x8000000000000000

/-- The greatest integer of 64 bits in two's complement. -/
def int64Max : Int := 0x7FFFFFFFFFFFFFFF

/-- The greatest natural number of 64 bits. -/
def nat64Max : Nat := 0xFFFFFFFFFFFFFFFF

/-- The integer, if it fits in 64 bits of two's complement. -/
def int64? (value : Int) : Option Int :=
  if int64Min ≤ value ∧ value ≤ int64Max then some value else none

/-- The character with a code point, if there is one. -/
def scalar? (code : Nat) : Option Char :=
  if code.isValidChar then some (Char.ofNat code) else none

end Template.Text
