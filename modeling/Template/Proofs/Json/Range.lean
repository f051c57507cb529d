import Template.Json.Numeral
import Template.Proofs.Double.Scaling
import Template.Proofs.Json.Spelling
import Template.Proofs.Text.Digits

/-!
# Numerals that are read as finite doubles

A numeral is cut down to the digits that fit in 64 bits before it is scaled, which does not
make its number greater.  So the range of scaled decimals is one of numerals, too.  It does not
reach up to the greatest finite double.
-/

namespace Template

namespace Numeral

open Template.Json (NumeralSpelling)
open Template.Text (nat64Max)

variable {numeral : Numeral} {text : List Char}

/-- The digits that are read are those in front of the first that does not fit. -/
theorem exists_extend {digits : List Char} (areDigits : ∀ char ∈ digits, char.isDigit = true)
    (significand : Nat) :
    ∃ front back, digits = front ++ back ∧
      extend significand digits = (Nat.ofDigitChars 10 front significand, back.length) ∧
      (significand ≤ nat64Max → Nat.ofDigitChars 10 front significand ≤ nat64Max) ∧
      ∀ char ∈ back.head?,
        nat64Max < 10 * Nat.ofDigitChars 10 front significand + (char.toNat - '0'.toNat) := by
  induction digits generalizing significand with
  | nil => exact ⟨[], [], rfl, rfl, id, by simp⟩
  | cons first rest inductionHypothesis =>
      obtain ⟨firstDigit, restDigits⟩ := List.forall_mem_cons.mp areDigits
      rw [extend, Text.digit?_of_isDigit firstDigit, Option.getD_some]
      by_cases fits : 10 * significand + (first.toNat - '0'.toNat) ≤ nat64Max
      · obtain ⟨front, back, split, read, bound, stops⟩ := inductionHypothesis restDigits
          (10 * significand + (first.toNat - '0'.toNat))
        refine ⟨first :: front, back, by rw [split, List.cons_append], ?_, ?_, ?_⟩
        · rw [if_pos fits, read, Nat.ofDigitChars_cons]
        · intro _
          rw [Nat.ofDigitChars_cons]
          exact bound fits
        · rwa [Nat.ofDigitChars_cons]
      · refine ⟨[], first :: rest, rfl, if_neg fits, id, ?_⟩
        rintro char ⟨⟩
        exact Nat.not_le.mp fits

/-- Further digits make a number greater, by their number of powers of ten at least. -/
theorem mul_pow_le_ofDigitChars (value : Nat) (digits : List Char) :
    value * 10 ^ digits.length ≤ Nat.ofDigitChars 10 digits value := by
  rw [Nat.ofDigitChars_eq_ofDigitChars_zero, Nat.mul_comm]
  exact Nat.le_add_right _ _

/-- A digit that is left out before the point is greater than any digit that is read behind the
point in its place, so what is read does not exceed what is written. -/
theorem read_le_written {back first last : List Char} {significand read : Nat}
    (readEq : read = Nat.ofDigitChars 10 first significand) (fits : read ≤ nat64Max)
    (stops : ∀ char ∈ back.head?, nat64Max < 10 * significand + (char.toNat - '0'.toNat)) :
    read * 10 ^ (back.length + last.length) ≤
      Nat.ofDigitChars 10 (back ++ (first ++ last)) significand := by
  cases back with
  | nil =>
      rw [List.length_nil, Nat.zero_add, List.nil_append, Nat.ofDigitChars_append, ← readEq]
      exact mul_pow_le_ofDigitChars read last
  | cons char others =>
      have exceeds := stops char rfl
      have atLeast := Nat.le_add_right (10 * significand) (char.toNat - '0'.toNat)
      rw [List.cons_append, Nat.ofDigitChars_cons]
      generalize 10 * significand + (char.toNat - '0'.toNat) = written at exceeds atLeast ⊢
      have place : read * 10 ≤ written * 10 ^ first.length := by
        cases first with
        | nil =>
            rw [readEq, Nat.ofDigitChars_nil, List.length_nil, Nat.pow_zero, Nat.mul_one,
              Nat.mul_comm]
            exact atLeast
        | cons =>
            exact Nat.mul_le_mul (fits.trans exceeds.le) (Nat.le_self_pow (Nat.succ_ne_zero _) 10)
      calc read * 10 ^ ((char :: others).length + last.length)
        _ = read * 10 * 10 ^ (others.length + last.length) := by
          rw [List.length_cons]
          ring
        _ ≤ written * 10 ^ first.length * 10 ^ (others.length + last.length) :=
          Nat.mul_le_mul_right _ place
        _ = written * 10 ^ (others ++ (first ++ last)).length := by
          rw [List.length_append, List.length_append]
          ring
        _ ≤ Nat.ofDigitChars 10 (others ++ (first ++ last)) written :=
          mul_pow_le_ofDigitChars written _

/-- What a numeral is cut down to has 64 bits, and is a decimal of the same number without some
of the digits. -/
theorem exists_shortened (whole : ∀ char ∈ numeral.whole, char.isDigit = true)
    (places : ∀ char ∈ numeral.places, char.isDigit = true) :
    numeral.shortened.coefficient ≤ nat64Max ∧
    ∃ omitted : Nat,
      numeral.shortened.exponent = numeral.decimal.exponent + omitted ∧
      numeral.shortened.coefficient * 10 ^ omitted ≤
        Nat.ofDigitChars 10 (numeral.whole ++ numeral.places) 0 := by
  obtain ⟨front, back, wholeSplit, wholeRead, wholeBound, stops⟩ := exists_extend whole 0
  obtain ⟨first, last, placesSplit, placesRead, placesBound, -⟩ :=
    exists_extend places (Nat.ofDigitChars 10 front 0)
  have fits := placesBound (wholeBound (Nat.zero_le _))
  have shortened : numeral.shortened =
      ⟨Nat.ofDigitChars 10 first (Nat.ofDigitChars 10 front 0),
        numeral.exponent.getD 0 + back.length - (numeral.places.length - last.length : Nat)⟩ := by
    simp only [Numeral.shortened, wholeRead, placesRead]
  rw [shortened]
  refine ⟨fits, back.length + last.length, ?_, ?_⟩
  · have lengths : numeral.places.length = first.length + last.length := by
      rw [placesSplit, List.length_append]
    simp only [decimal]
    omega
  · rw [wholeSplit, placesSplit, List.append_assoc, Nat.ofDigitChars_append]
    exact read_le_written rfl fits stops

/-- The decimal that a numeral is cut down to is not greater than the one that it spells. -/
theorem shortened_le (written : NumeralSpelling numeral text) :
    numeral.shortened.coefficient ≤ nat64Max ∧
      numeral.shortened.value ≤ numeral.decimal.value := by
  obtain ⟨nonempty, whole, places⟩ : numeral.whole ≠ [] ∧
      (∀ char ∈ numeral.whole, char.isDigit = true) ∧
      ∀ char ∈ numeral.places, char.isDigit = true := by
    cases written with
    | number whole _ fraction _ =>
        refine ⟨whole.1, whole.2, ?_⟩
        cases fraction with
        | missing => exact List.forall_mem_nil _
        | places places => exact places.2
  have digits := Text.natural?_eq_ofDigitChars (List.append_ne_nil_of_left_ne_nil nonempty _)
    (List.forall_mem_append.mpr ⟨whole, places⟩)
  have spelled : numeral.decimal.coefficient =
      Nat.ofDigitChars 10 (numeral.whole ++ numeral.places) 0 := by
    rw [decimal, digits, Option.getD_some]
  obtain ⟨fits, omitted, exponent, coefficient⟩ := exists_shortened whole places
  have coefficientCast : (numeral.shortened.coefficient * 10 ^ omitted : ℚ) ≤
      numeral.decimal.coefficient := by
    rw [spelled]
    exact_mod_cast coefficient
  refine ⟨fits, ?_⟩
  rw [Decimal.value, Decimal.value, exponent, add_comm, zpow_add₀ (by norm_num), zpow_natCast,
    ← mul_assoc]
  exact mul_le_mul_of_nonneg_right coefficientCast (by positivity)

/-- A numeral is in the range of doubles if its number is not above the greatest finite one. -/
def InDoubleRange (numeral : Numeral) : Prop :=
  numeral.decimal.value ≤ Double.value (Double.infinite - 1)

/-- A numeral is read as a finite double. -/
def ReadsFinite (numeral : Numeral) : Prop := numeral.scaled.isFinite = true

instance (numeral : Numeral) : Decidable numeral.ReadsFinite :=
  inferInstanceAs (Decidable (_ = true))

/-- Numbers up to the fourth greatest finite double are read as finite doubles, whatever their
spelling is. -/
theorem readsFinite_of_le (written : NumeralSpelling numeral text)
    (atMost : numeral.decimal.value ≤ 2 ^ 1024 - 2 ^ 973) : numeral.ReadsFinite := by
  obtain ⟨fits, shorter⟩ := shortened_le written
  exact decide_eq_true (Double.scaledDecimal_lt_infinite fits (shorter.trans atMost))

/-- A number between the two greatest finite doubles. -/
def nextToGreatest : Numeral :=
  ⟨false, ['1'], some "797693134862315690".toList, some 308⟩

/-- Not all numbers in the range of doubles are read as finite ones. -/
theorem inDoubleRange_nextToGreatest :
    nextToGreatest.InDoubleRange ∧ ¬ nextToGreatest.ReadsFinite := by
  refine ⟨?_, by decide +kernel⟩
  have decimal : nextToGreatest.decimal = ⟨1797693134862315690, 290⟩ := by decide +kernel
  have bound : ((1797693134862315690 * 10 ^ 290 : Nat) : ℚ) ≤
      (18014398509481982 * 2 ^ 970 : Nat) := Nat.cast_le.mpr (by decide +kernel)
  rw [Nat.cast_mul, Nat.cast_mul, Nat.cast_pow, Nat.cast_pow] at bound
  have factor : (2 : ℚ) ^ 54 - 2 = 18014398509481982 := by norm_num only
  rw [InDoubleRange, decimal, Decimal.value, Double.value_greatest, factor]
  exact bound

end Numeral

end Template
