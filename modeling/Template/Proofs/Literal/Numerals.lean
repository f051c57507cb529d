import Template.Proofs.Literal.Grammar

/-!
# Numbers of the grammar

A number that is read is a number of the grammar unless a zero stands before its first digit or
a sign between the mark of base sixteen and the digits (`isStrictNumeral`).  Where it is one, the
double that is read is the nearest to its value.
-/

namespace Template.Literal

open Template.Text
open Double (IsNearest)

variable {base count value : Nat} {text whole fraction : List Char}

/-- Whether a number that is read is one of the grammar. -/
def isStrictNumeral : List Char → Bool
  | '0' :: second :: rest =>
    if second == 'x' || second == 'X' then rest.head? != some '+' && rest.head? != some '-'
    else !second.isDigit
  | _ => true

/-! ## From the grammar -/

theorem isStrictNumeral_of_head? (noZero : text.head? ≠ some '0') :
    isStrictNumeral text = true := by
  unfold isStrictNumeral
  split
  next => simp at noZero
  next => rfl

theorem WholePart.isStrictNumeral {rest : List Char} (wholePart : WholePart whole value)
    (next : ∀ char ∈ rest.head?, char = '.' ∨ char = 'e' ∨ char = 'E') :
    isStrictNumeral (whole ++ rest) = true := by
  cases wholePart with
  | zero =>
    cases rest with
    | nil => rfl
    | cons second rest => rcases next second rfl with rfl | rfl | rfl <;> rfl
  | digits written noZero =>
    obtain ⟨first, others, digit, rfl, -⟩ := written.exists_head
    exact isStrictNumeral_of_head? noZero

theorem ExponentPart.head? {exponent : List Char} {power : Int}
    (exponentPart : ExponentPart exponent power) :
    ∀ char ∈ exponent.head?, char = 'e' ∨ char = 'E' := by
  cases exponentPart with
  | missing => simp
  | positive marked _ _ => simpa using marked
  | negative marked _ => simpa using marked

/-- The numbers of the grammar are strict. -/
theorem Numeral.isStrictNumeral {number : ℚ} (numeral : Numeral text number) :
    isStrictNumeral text = true := by
  cases numeral with
  | integer wholePart exponentPart =>
    exact wholePart.isStrictNumeral fun char next => .inr (exponentPart.head? char next)
  | pointed wholePart _ _ => exact wholePart.isStrictNumeral (by simp)
  | fraction => rfl
  | @based mark base digits _ _ marked written =>
    simp only [baseMarks, List.mem_cons, Prod.mk.injEq, List.not_mem_nil, or_false] at marked
    have noSign {char : Char} (noDigit : char.isAlphanum = false) : digits.head? ≠ some char :=
      written.head?_ne (by omega) noDigit
    have noPlus : digits.head? ≠ some '+' := noSign (by decide)
    have noMinus : digits.head? ≠ some '-' := noSign (by decide)
    rcases marked with ⟨rfl, -⟩ | ⟨rfl, -⟩ | ⟨rfl, -⟩ | ⟨rfl, -⟩ | ⟨rfl, -⟩ | ⟨rfl, -⟩
    · rfl
    · rfl
    · rfl
    · rfl
    · simp [Literal.isStrictNumeral, noPlus, noMinus]
    · simp [Literal.isStrictNumeral, noPlus, noMinus]

/-! ## From the reader -/

theorem exponentPart_of_exponent? {exponent : List Char} {power : Int}
    (read : Decimal.exponent? exponent = some power) : ExponentPart exponent power := by
  unfold Decimal.exponent? at read
  split at read
  next =>
    obtain rfl := Option.some.inj read
    exact .missing
  next mark rest =>
    split at read
    next marked =>
      have isMark : mark ∈ ['e', 'E'] := by simpa using marked
      unfold signed? at read
      split at read
      next digits =>
        obtain ⟨value, natural, rfl⟩ := Option.map_eq_some_iff.mp read
        have plus : ['+'] ∈ [[], ['+']] := by decide
        exact .positive isMark plus (digits_of_natural? (by decide) true natural)
      next digits =>
        obtain ⟨value, natural, rfl⟩ := Option.map_eq_some_iff.mp read
        exact .negative isMark (digits_of_natural? (by decide) true natural)
      next =>
        obtain ⟨value, natural, rfl⟩ := Option.map_eq_some_iff.mp read
        have noSign : [] ∈ [[], ['+']] := by decide
        exact .positive isMark noSign (digits_of_natural? (by decide) true natural)
    next => contradiction

/-- Digits in a row can be read in two parts. -/
theorem natural?_append (nonempty : whole ≠ [])
    (read : natural? base (whole ++ fraction) = some value) :
    ∃ before, natural? base whole = some before ∧
      (fraction = [] ∧ value = before ∨ ∃ after, natural? base fraction = some after ∧
        value = before * base ^ fraction.length + after) := by
  induction fraction using List.reverseRecOn generalizing value with
  | nil =>
    rw [List.append_nil] at read
    exact ⟨value, read, .inl ⟨rfl, rfl⟩⟩
  | append_singleton fraction char inductionHypothesis =>
    rw [← List.append_assoc, natural?_concat (by simp [nonempty])] at read
    obtain ⟨front, frontRead, lastRead⟩ := Option.bind_eq_some_iff.mp read
    obtain ⟨digit, digitRead, rfl⟩ := Option.map_eq_some_iff.mp lastRead
    obtain ⟨before, beforeRead, rest⟩ := inductionHypothesis frontRead
    refine ⟨before, beforeRead, .inr ?_⟩
    rcases rest with ⟨rfl, rfl⟩ | ⟨after, afterRead, rfl⟩
    · refine ⟨digit, by rw [List.nil_append, natural?_single, digitRead], ?_⟩
      rw [List.nil_append, List.length_singleton, pow_one, Nat.mul_comm]
    · refine ⟨base * after + digit, ?_, ?_⟩
      · rw [natural?_concat, afterRead, digitRead]
        · rfl
        · rintro rfl
          contradiction
      · rw [List.length_append, List.length_singleton, pow_succ]
        ring

/-- The digits around a point are read as a whole part and a fraction. -/
theorem exists_fractionPart (nonempty : whole ≠ [])
    (read : natural? 10 (whole ++ fraction) = some value) :
    ∃ before places, natural? 10 whole = some before ∧ FractionPart fraction places ∧
      (value : ℚ) = (before + places) * 10 ^ fraction.length := by
  obtain ⟨before, beforeRead, rest⟩ := natural?_append nonempty read
  refine ⟨before, ?_⟩
  rcases rest with ⟨rfl, rfl⟩ | ⟨after, afterRead, rfl⟩
  · exact ⟨0, beforeRead, .missing, by simp⟩
  · refine ⟨after / 10 ^ fraction.length, beforeRead,
      .digits (digits_of_natural? (by decide) true afterRead), ?_⟩
    rw [add_mul, div_mul_cancel₀ _ (by positivity), Nat.cast_add, Nat.cast_mul, Nat.cast_pow,
      Nat.cast_ofNat]

/-- The first digit of a strict number is a zero only if it is alone. -/
theorem wholePart_of_natural? {rest : List Char} (read : natural? 10 whole = some value)
    (strict : isStrictNumeral (whole ++ rest) = true) : WholePart whole value := by
  have written := digits_of_natural? (by decide) true read
  by_cases zero : whole.head? = some '0'
  · obtain ⟨others, rfl⟩ : ∃ others, whole = '0' :: others := by
      cases whole <;> simp_all
    cases others with
    | nil =>
      obtain rfl : 0 = value := Option.some.inj read
      exact .zero
    | cons second others =>
      have isDigit : second.isDigit = true := by
        cases digit : digit? 10 second with
        | none =>
          have zeroDigit : digit? 10 '0' = some 0 := by decide
          simp [natural?, digitsFrom, zeroDigit, digit] at read
        | some value => exact ((digit?_eq_some_iff (by decide)).mp digit).isDigit
      have noBase : second ≠ 'x' ∧ second ≠ 'X' := by
        constructor <;> (rintro rfl; contradiction)
      simp [isStrictNumeral, isDigit, noBase] at strict
  · exact .digits written zero

/-- What a decimal that is read consists of. -/
theorem exists_parts_of_read? {decimal : Decimal} (read : Decimal.read? text = some decimal) :
    ∃ whole fraction exponent : List Char, ∃ coefficient : Nat, ∃ power : Int,
      (text = whole ++ exponent ∧ fraction = [] ∨ text = whole ++ '.' :: (fraction ++ exponent)) ∧
      natural? 10 (whole ++ fraction) = some coefficient ∧
      Decimal.exponent? exponent = some power ∧
      decimal = ⟨coefficient, power - fraction.length⟩ := by
  have split := List.takeWhile_append_dropWhile (p := Char.isDigit) (l := text)
  unfold Decimal.read? at read
  generalize text.takeWhile Char.isDigit = whole at split read
  generalize text.dropWhile Char.isDigit = behind at split read
  subst split
  split at read
  next fraction exponent parts =>
    simp only at read
    split at read
    next coefficient power digits exponentRead =>
      obtain rfl := Option.some.inj read
      refine ⟨whole, fraction, exponent, coefficient, power, ?_, digits, exponentRead, rfl⟩
      split at parts
      next rest =>
        obtain ⟨rfl, rfl⟩ := Prod.mk.inj parts
        rw [List.takeWhile_append_dropWhile]
        exact .inr rfl
      next =>
        obtain ⟨rfl, rfl⟩ := Prod.mk.inj parts
        exact .inl ⟨rfl, rfl⟩
    next => contradiction

/-- A decimal that is read is a number of the grammar, with its value. -/
theorem numeral_of_read? {decimal : Decimal} (read : Decimal.read? text = some decimal)
    (strict : isStrictNumeral text = true) : Numeral text decimal.value := by
  obtain ⟨whole, fraction, exponent, coefficient, power, layout, digits, exponentRead, rfl⟩ :=
    exists_parts_of_read? read
  have exponentPart := exponentPart_of_exponent? exponentRead
  have shifted : (⟨coefficient, power - fraction.length⟩ : Decimal).value =
      coefficient / 10 ^ fraction.length * 10 ^ power := by
    rw [Decimal.value, zpow_sub₀ (by norm_num), zpow_natCast]
    ring
  by_cases noWhole : whole = []
  · subst noWhole
    rcases layout with ⟨-, rfl⟩ | rfl
    · contradiction
    · rw [shifted]
      exact .fraction (digits_of_natural? (by decide) true digits) exponentPart
  · obtain ⟨before, places, beforeRead, fractionPart, coefficientEq⟩ :=
      exists_fractionPart noWhole digits
    rw [shifted, coefficientEq, mul_div_cancel_right₀ _ (by positivity)]
    rcases layout with ⟨rfl, rfl⟩ | rfl
    · have noPlaces : places = 0 := by
        cases fractionPart with
        | missing => rfl
        | digits written => exact absurd rfl written.ne_nil
      rw [noPlaces, add_zero]
      exact .integer (wholePart_of_natural? beforeRead strict) exponentPart
    · exact .pointed (wholePart_of_natural? beforeRead strict) fractionPart exponentPart

/-- The integers of base sixteen that are read and have no sign. -/
theorem numeral_of_hexadecimal {mark : Char} {digits : List Char} {number : Double}
    (marked : mark = 'x' ∨ mark = 'X')
    (read : ((signed? 16 digits).bind int64?).map Double.ofInt = some number)
    (strict : isStrictNumeral ('0' :: mark :: digits) = true) :
    number.negative = false ∧
      ∃ exact, Numeral ('0' :: mark :: digits) exact ∧ IsNearest number.magnitude exact := by
  have noSign : digits.head? ≠ some '+' ∧ digits.head? ≠ some '-' := by
    rcases marked with rfl | rfl <;> simpa [isStrictNumeral] using strict
  obtain ⟨integer, fits, rfl⟩ := Option.map_eq_some_iff.mp read
  obtain ⟨written, signedRead, inRange⟩ := Option.bind_eq_some_iff.mp fits
  unfold int64? at inRange
  split at inRange
  next =>
    obtain rfl := Option.some.inj inRange
    unfold signed? at signedRead
    split at signedRead
    next => simp at noSign
    next => simp at noSign
    next =>
      obtain ⟨value, natural, rfl⟩ := Option.map_eq_some_iff.mp signedRead
      have isMark : (mark, 16) ∈ baseMarks := by
        rcases marked with rfl | rfl <;> decide
      refine ⟨Double.negative_ofInt value, value,
        .based isMark (digits_of_natural? (by decide) true natural), ?_⟩
      exact Double.isNearest_ofInt (Int.ofNat value)
  next => contradiction

/-- A number that is read and strict is one of the grammar, and the nearest double. -/
theorem numeral_of_unsignedNumber? {number : Double} (read : unsignedNumber? text = some number)
    (strict : isStrictNumeral text = true) :
    number.negative = false ∧ ∃ exact, Numeral text exact ∧ IsNearest number.magnitude exact := by
  unfold unsignedNumber? at read
  split at read
  next digits => exact numeral_of_hexadecimal (.inl rfl) read strict
  next digits => exact numeral_of_hexadecimal (.inr rfl) read strict
  next first rest _ _ =>
    split at read
    next =>
      obtain ⟨decimal, decimalRead, rfl⟩ := Option.map_eq_some_iff.mp read
      exact ⟨rfl, _, numeral_of_read? decimalRead strict, Double.isNearest_nearestDecimal decimal⟩
    next => contradiction
  next => contradiction

end Template.Literal
