import Template.Text.Digits

/-!
# Decimal digits

Decimal digits are read as the number that `Nat.ofDigitChars` gives, so what is known of the
library's way from digits to numbers is known of the reader.
-/

namespace Template.Text

variable {digits : List Char}

theorem digit?_of_isDigit {char : Char} (digit : char.isDigit = true) :
    digit? 10 char = some (char.toNat - '0'.toNat) := by
  have atMost : char.toNat ≤ 57 := by
    have bounds : 48 ≤ char.toNat ∧ char.toNat ≤ 57 := by
      simpa [Char.isDigit, UInt32.le_iff_toNat_le] using digit
    exact bounds.2
  have small : char.toNat - 48 < 10 := by omega
  simp [digit?, hexDigit?, digit, small]

theorem digitsFrom_eq_ofDigitChars (areDigits : ∀ char ∈ digits, char.isDigit = true)
    (value : Nat) : digitsFrom 10 value digits = some (Nat.ofDigitChars 10 digits value) := by
  induction digits generalizing value with
  | nil => rfl
  | cons first rest inductionHypothesis =>
      obtain ⟨firstDigit, restDigits⟩ := List.forall_mem_cons.mp areDigits
      rw [digitsFrom, digit?_of_isDigit firstDigit, Nat.ofDigitChars_cons]
      exact inductionHypothesis restDigits _

theorem natural?_eq_ofDigitChars (nonempty : digits ≠ [])
    (areDigits : ∀ char ∈ digits, char.isDigit = true) :
    natural? 10 digits = some (Nat.ofDigitChars 10 digits 0) := by
  rw [natural?, if_neg (by simpa using nonempty), digitsFrom_eq_ofDigitChars areDigits]

theorem natural?_toDigits (number : Nat) : natural? 10 (Nat.toDigits 10 number) = some number := by
  rw [natural?_eq_ofDigitChars Nat.toDigits_ne_nil, Nat.ofDigitChars_ten_toDigits]
  exact fun char => Nat.isDigit_of_mem_toDigits (by decide) (by decide)

end Template.Text
