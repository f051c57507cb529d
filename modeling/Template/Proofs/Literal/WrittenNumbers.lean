import Template.ClassList
import Template.Proofs.Double.Text
import Template.Proofs.Text.Digits
import Template.Proofs.Text.Trimming

/-!
# Written numbers

A number that is written and then read is the same number, to the bit.  Whichever form its text
has, the decimal that is read has the value of the decimal that was written
(`Decimal.read?_layout`), and this value is rounded to the number because the digits were chosen
so.  The sign of zero is the only thing that the text of a finite number does not show.
-/

namespace Template

/-! ## Decimals -/

namespace Decimal

open Template.Text

variable {whole fraction rest text : List Char} {power : Int}

theorem exponent?_nil : exponent? [] = some 0 := rfl

theorem exponent?_toDigits (power : Int) :
    exponent? ('e' :: (if power < 0 then '-' else '+') :: Nat.toDigits 10 power.natAbs) =
      some power := by
  rw [exponent?, if_pos (by decide)]
  split
  next negative =>
    rw [signed?, natural?_toDigits, Option.map_some, Option.some_inj, Int.ofNat_eq_natCast]
    omega
  next positive =>
    rw [signed?, natural?_toDigits, Option.map_some, Option.some_inj, Int.ofNat_eq_natCast]
    omega

/-- Digits are read up to the first character that is none. -/
theorem split_digits (areDigits : ∀ char ∈ whole, char.isDigit = true)
    (ends : ∀ char ∈ rest.head?, char.isDigit = false) :
    (whole ++ rest).takeWhile Char.isDigit = whole ∧
      (whole ++ rest).dropWhile Char.isDigit = rest := by
  rw [List.takeWhile_append_of_pos areDigits, List.dropWhile_append_of_pos areDigits]
  cases rest with
  | nil => simp
  | cons first rest =>
      have noDigit : ¬ first.isDigit = true := by simp [ends first rfl]
      rw [List.takeWhile_cons_of_neg noDigit, List.dropWhile_cons_of_neg noDigit, List.append_nil]
      exact ⟨rfl, rfl⟩

/-- An exponent starts with its mark. -/
theorem head?_of_exponent? (read : exponent? rest = some power) :
    ∀ char ∈ rest.head?, char = 'e' ∨ char = 'E' := by
  cases rest with
  | nil => simp
  | cons mark rest =>
      rintro char ⟨⟩
      rw [exponent?] at read
      split at read
      next marked => simpa using marked
      next => contradiction

theorem isDigit_of_exponent? (read : exponent? rest = some power) :
    ∀ char ∈ rest.head?, char.isDigit = false := by
  intro char starts
  rcases head?_of_exponent? read char starts with rfl | rfl <;> rfl

/-- Digits without a point are read as their number. -/
theorem read?_whole (whole : List Char) (areDigits : ∀ char ∈ whole, char.isDigit = true)
    (nonempty : whole ≠ []) (exponent : exponent? rest = some power) :
    read? (whole ++ rest) = some ⟨Nat.ofDigitChars 10 whole 0, power⟩ := by
  obtain ⟨taken, dropped⟩ := split_digits areDigits (isDigit_of_exponent? exponent)
  have noPoint : ∀ behind, rest ≠ '.' :: behind := by
    rintro behind rfl
    simpa using head?_of_exponent? exponent
  unfold read?
  rw [taken, dropped]
  split
  next fraction exponentText parts =>
    split at parts
    next behind => exact absurd rfl (noPoint behind)
    next =>
      obtain ⟨rfl, rfl⟩ := Prod.mk.inj parts
      simp [natural?_eq_ofDigitChars nonempty areDigits, exponent]

/-- Digits around a point are read as one number, and those behind it are counted. -/
theorem read?_pointed (whole fraction : List Char)
    (areDigits : ∀ char ∈ whole ++ fraction, char.isDigit = true) (nonempty : whole ≠ [])
    (exponent : exponent? rest = some power) :
    read? (whole ++ '.' :: (fraction ++ rest)) =
      some ⟨Nat.ofDigitChars 10 (whole ++ fraction) 0, power - fraction.length⟩ := by
  have point : ∀ char ∈ ('.' :: (fraction ++ rest)).head?, char.isDigit = false := by
    rintro char ⟨⟩
    rfl
  obtain ⟨wholeDigits, fractionDigits⟩ := List.forall_mem_append.mp areDigits
  obtain ⟨taken, dropped⟩ := split_digits wholeDigits point
  obtain ⟨fractionTaken, fractionDropped⟩ :=
    split_digits fractionDigits (isDigit_of_exponent? exponent)
  have digits : natural? 10 (whole ++ fraction) = _ :=
    natural?_eq_ofDigitChars (by simp [nonempty]) areDigits
  simp only [read?, taken, dropped, fractionTaken, fractionDropped, digits, exponent]

theorem isDigit_of_mem_replicate (count : Nat) :
    ∀ char ∈ List.replicate count '0', char.isDigit = true := by
  intro char membership
  rw [List.eq_of_mem_replicate membership]
  rfl

section

variable {digits : List Char} (areDigits : ∀ char ∈ digits, char.isDigit = true)
include areDigits

/-- Zeros behind digits multiply their number. -/
theorem read?_zeros_behind (nonempty : digits ≠ []) (count : Nat) :
    read? (digits ++ List.replicate count '0') =
      some ⟨10 ^ count * Nat.ofDigitChars 10 digits 0, 0⟩ := by
  have read := read?_whole (digits ++ List.replicate count '0')
    (List.forall_mem_append.mpr ⟨areDigits, isDigit_of_mem_replicate count⟩) (by simp [nonempty])
    exponent?_nil
  rwa [List.append_nil, Nat.ofDigitChars_append, Nat.ofDigitChars_replicate_zero] at read

/-- Zeros before digits behind a point count as places. -/
theorem read?_zeros_before (count : Nat) :
    read? ('0' :: '.' :: (List.replicate count '0' ++ digits)) =
      some ⟨Nat.ofDigitChars 10 digits 0, 0 - (count + digits.length)⟩ := by
  have places := List.forall_mem_append.mpr ⟨isDigit_of_mem_replicate count, areDigits⟩
  have read := read?_pointed ['0'] (List.replicate count '0' ++ digits)
    (List.forall_mem_cons.mpr ⟨rfl, places⟩) (List.cons_ne_nil _ _) exponent?_nil
  have number : Nat.ofDigitChars 10 (['0'] ++ (List.replicate count '0' ++ digits)) 0 =
      Nat.ofDigitChars 10 digits 0 := by
    rw [Nat.ofDigitChars_append, Nat.ofDigitChars_append]
    exact congrArg _ Nat.ofDigitChars_replicate_zero
  rwa [List.append_nil, number, List.length_append, List.length_replicate, Nat.cast_add] at read

/-- Whichever form digits with a point are written in, they are read with their value. -/
theorem read?_layout {point : Int} (nonempty : digits ≠ [])
    (layout : Double.Layout digits point text) :
    ∃ read, read? text = some read ∧
      read.value = (⟨Nat.ofDigitChars 10 digits 0, point - digits.length⟩ : Decimal).value := by
  cases layout with
  | integer reaches near =>
      obtain ⟨count, shift⟩ := Int.eq_ofNat_of_zero_le (show 0 ≤ point - digits.length by omega)
      rw [shift, Int.toNat_natCast]
      refine ⟨_, read?_zeros_behind areDigits nonempty count, ?_⟩
      rw [value, value, zpow_zero, mul_one, zpow_natCast, Nat.cast_mul, Nat.cast_pow,
        Nat.cast_ofNat, mul_comm]
  | inside after before near =>
      obtain ⟨count, rfl⟩ := Int.eq_ofNat_of_zero_le after.le
      rw [Int.toNat_natCast]
      have parts := digits.take_append_drop count
      have read := read?_pointed (digits.take count) (digits.drop count) (by rwa [parts])
        (by simp [nonempty]; omega) exponent?_nil
      have shift : 0 - ((digits.drop count).length : Int) = count - digits.length := by
        rw [List.length_drop]
        omega
      rw [List.append_nil, parts, shift] at read
      exact ⟨_, read, rfl⟩
  | fraction near before =>
      obtain ⟨count, below⟩ := Int.eq_ofNat_of_zero_le (show 0 ≤ -point by omega)
      have shift : 0 - ((count : Int) + digits.length) = point - digits.length := by omega
      rw [below, Int.toNat_natCast]
      exact ⟨_, read?_zeros_before areDigits count, by rw [shift]⟩
  | @single digit sign alone far signed =>
      subst alone signed
      exact ⟨_, read?_whole [digit] areDigits nonempty (exponent?_toDigits (point - 1)), rfl⟩
  | @several first second sign rest more far signed =>
      subst more signed
      have read := read?_pointed [first] (second :: rest) areDigits (List.cons_ne_nil _ _)
        (exponent?_toDigits (point - 1))
      have shift : point - 1 - ((second :: rest).length : Int) =
          point - (first :: second :: rest).length := by
        simp only [List.length_cons]
        omega
      rw [shift] at read
      exact ⟨_, read, rfl⟩

end

end Decimal

/-! ## The characters of a number -/

/-- Whether a character occurs in the text of a finite number. -/
def Text.isNumberChar (char : Char) : Bool :=
  char.isDigit || ['.', 'e', '+', '-'].contains char

/-- A text that starts with a digit and has only characters of numbers. -/
structure Text.IsNumeric (text : List Char) : Prop where
  starts : ∃ first rest, text = first :: rest ∧ first.isDigit = true
  numeric : ∀ char ∈ text, isNumberChar char = true

namespace Text

theorem isNumberChar_of_isDigit {char : Char} (digit : char.isDigit = true) :
    isNumberChar char = true := by
  rw [isNumberChar, digit, Bool.true_or]

theorem isBlank_of_isNumberChar {char : Char} (numeric : isNumberChar char = true) :
    isBlank char = false := by
  rw [isNumberChar, Bool.or_eq_true] at numeric
  rcases numeric with digit | sign
  · exact isBlank_of_isDigit digit
  · simp only [List.contains_eq_mem, decide_eq_true_eq, List.mem_cons, List.not_mem_nil,
      or_false] at sign
    rcases sign with rfl | rfl | rfl | rfl <;> rfl

theorem IsNumeric.visible {text : List Char} (numeric : IsNumeric text) :
    ∀ char ∈ text, isBlank char = false := fun char within =>
  isBlank_of_isNumberChar (numeric.numeric char within)

end Text

/-- Every form starts with a digit and needs no other characters. -/
theorem Double.Layout.isNumeric {digits text : List Char} {point : Int}
    (areDigits : ∀ char ∈ digits, char.isDigit = true) (nonempty : digits ≠ [])
    (layout : Layout digits point text) : Text.IsNumeric text := by
  have numeric : ∀ char ∈ digits, Text.isNumberChar char = true := fun char within =>
    Text.isNumberChar_of_isDigit (areDigits char within)
  have zeros (count : Nat) : ∀ char ∈ List.replicate count '0', Text.isNumberChar char = true :=
    fun char within =>
      Text.isNumberChar_of_isDigit (Decimal.isDigit_of_mem_replicate count char within)
  have power : ∀ char ∈ Nat.toDigits 10 (point - 1).natAbs, Text.isNumberChar char = true :=
    fun char within =>
      Text.isNumberChar_of_isDigit (Nat.isDigit_of_mem_toDigits (by decide) (by decide) within)
  have sign : Text.isNumberChar (if point - 1 < 0 then '-' else '+') = true := by
    split <;> rfl
  obtain ⟨first, others, rfl⟩ := List.exists_cons_of_ne_nil nonempty
  have starts := areDigits first List.mem_cons_self
  cases layout with
  | integer reaches near =>
      exact ⟨⟨first, _, rfl, starts⟩, List.forall_mem_append.mpr ⟨numeric, zeros _⟩⟩
  | inside after before near =>
      obtain ⟨count, countEq⟩ : ∃ count, point.toNat = count + 1 := ⟨point.toNat - 1, by omega⟩
      rw [countEq]
      refine ⟨⟨first, _, rfl, starts⟩, List.forall_mem_append.mpr ⟨?_, ?_⟩⟩
      · exact fun char within => numeric char (List.mem_of_mem_take within)
      · exact List.forall_mem_cons.mpr
          ⟨rfl, fun char within => numeric char (List.mem_of_mem_drop within)⟩
  | fraction near before =>
      refine ⟨⟨'0', _, rfl, rfl⟩, ?_⟩
      simp only [List.forall_mem_cons, List.forall_mem_append]
      exact ⟨rfl, rfl, zeros _, List.forall_mem_cons.mp numeric⟩
  | single alone far signed =>
      obtain ⟨rfl, rfl⟩ := List.cons.inj alone
      subst signed
      refine ⟨⟨first, _, rfl, starts⟩, ?_⟩
      simp only [List.forall_mem_cons]
      exact ⟨numeric first List.mem_cons_self, rfl, sign, power⟩
  | several more far signed =>
      obtain ⟨rfl, rfl⟩ := List.cons.inj more
      subst signed
      refine ⟨⟨first, _, rfl, starts⟩, ?_⟩
      simp only [List.forall_mem_cons, List.forall_mem_append] at numeric ⊢
      exact ⟨⟨numeric.1, rfl, numeric.2⟩, rfl, sign, power⟩

namespace Literal

open Template.Text

theorem unsignedNumber?_of_isNumeric {text : List Char} (numeric : IsNumeric text) :
    unsignedNumber? text = (Decimal.read? text).map (Double.ofDecimal false) := by
  obtain ⟨⟨first, rest, rfl, digit⟩, characters⟩ := numeric
  unfold unsignedNumber?
  split
  next digits same => exact absurd (characters 'x' (by rw [same]; simp)) (by decide)
  next digits same => exact absurd (characters 'X' (by rw [same]; simp)) (by decide)
  next start others _ _ same =>
      obtain ⟨rfl, rfl⟩ := List.cons.inj same
      rw [digit, Bool.true_or, if_pos rfl]
  next => contradiction

/-- What starts with a digit or a minus sign is left to the numbers. -/
theorem ofChars?_number {first : Char} {rest : List Char}
    (starts : first.isDigit = true ∨ first = '-') :
    ofChars? (first :: rest) = (number? (first :: rest)).map .number := by
  have noKeyword : first ≠ 't' ∧ first ≠ 'f' ∧ first ≠ 'n' := by
    refine ⟨?_, ?_, ?_⟩ <;> rintro rfl <;> exact absurd starts (by decide)
  have noMark : first ≠ doubleQuote ∧ first ≠ singleQuote ∧ first ≠ backtick := by
    refine ⟨?_, ?_, ?_⟩ <;> rintro rfl <;> exact absurd starts (by decide)
  simp [ofChars?, noKeyword, noMark]

theorem read?_unsigned {text : List Char} (numeric : IsNumeric text) :
    read? (String.ofList text) = (unsignedNumber? text).map .number := by
  rw [read?, String.toList_ofList, strip_of_visible numeric.visible]
  obtain ⟨first, rest, rfl, digit⟩ := numeric.starts
  rw [ofChars?_number (.inl digit)]
  unfold number?
  split
  next same =>
    rw [(List.cons.inj same).1] at digit
    contradiction
  next => rfl

theorem read?_negated {text : List Char} (numeric : IsNumeric text) :
    read? (String.ofList ('-' :: text)) =
      ((unsignedNumber? text).map Double.neg).map .number := by
  have visible : ∀ char ∈ '-' :: text, Text.isBlank char = false :=
    List.forall_mem_cons.mpr ⟨rfl, numeric.visible⟩
  rw [read?, String.toList_ofList, strip_of_visible visible, ofChars?_number (.inr rfl), number?,
    stripStart_of_visible numeric.visible]

end Literal

namespace Double

variable {magnitude : Nat} {number : Double}

/-- The text of a finite magnitude is read as the magnitude. -/
theorem MagnitudeText.read {body : List Char} (finite : magnitude < infinite)
    (written : MagnitudeText magnitude body) :
    Text.IsNumeric body ∧
      ∃ atMost, Literal.unsignedNumber? body = some ⟨false, magnitude, atMost⟩ := by
  cases written with
  | zero =>
      exact ⟨⟨⟨'0', [], rfl, rfl⟩, List.forall_mem_singleton.mpr rfl⟩, Nat.zero_le _, rfl⟩
  | infinity => exact absurd finite (lt_irrefl _)
  | @finite _ decimal _ shortest layout =>
      have areDigits : ∀ char ∈ decimal.digits, char.isDigit = true := fun char =>
        Nat.isDigit_of_mem_toDigits (by decide) (by decide)
      have nonempty : decimal.digits ≠ [] := Nat.toDigits_ne_nil
      have numeric := layout.isNumeric areDigits nonempty
      obtain ⟨read, readEq, valueEq⟩ := Decimal.read?_layout areDigits nonempty layout
      have exponentEq : decimal.leading + 1 - decimal.digits.length = decimal.exponent := by
        rw [Decimal.leading]
        omega
      have coefficientEq : Nat.ofDigitChars 10 decimal.digits 0 = decimal.coefficient :=
        Nat.ofDigitChars_ten_toDigits
      rw [exponentEq, coefficientEq] at valueEq
      -- The decimal that is read may have more digits, but it is rounded in the same way.
      have rounded : IsNearest magnitude read.value := valueEq ▸ shortest.nearest
      obtain rfl := (isNearest_nearestDecimal read).unique rounded
      refine ⟨numeric, nearestDecimal_le_infinite read, ?_⟩
      rw [Literal.unsignedNumber?_of_isNumeric numeric, readEq]
      rfl

/-- A number without the sign of zero. -/
def unsignedZero (number : Double) : Double :=
  { number with negative := number.negative && number.magnitude != 0 }

theorem unsignedZero_eq_iff :
    number.unsignedZero = number ↔ ¬ (number.negative = true ∧ number.magnitude = 0) := by
  obtain ⟨negative, magnitude, atMost⟩ := number
  cases negative <;> simp [unsignedZero]

/-- A text of a finite number is read as the number, where zero has no sign. -/
theorem read?_of_numberText {text : String} (finite : number.isFinite = true)
    (written : NumberText number text) :
    Literal.read? text = some (.number number.unsignedZero) := by
  obtain ⟨body, magnitudeText, characters⟩ := written
  obtain ⟨numeric, atMost, read⟩ := magnitudeText.read (by simpa [isFinite] using finite)
  obtain rfl : text = String.ofList _ := (String.ofList_toList.symm.trans (by rw [characters]))
  split
  next signed =>
    rw [Literal.read?_negated numeric, read]
    simp [unsignedZero, neg, signed]
  next unsigned =>
    have noSign : (number.negative && number.magnitude != 0) = false := by simpa using unsigned
    rw [Literal.read?_unsigned numeric, read]
    simp [unsignedZero, noSign]

end Double

/-- A number is read back from its text, bit for bit, exactly if it is finite and not the
negative zero. -/
theorem Literal.read?_text_number_iff (number : Double) :
    read? (Literal.number number).value.text = some (.number number) ↔
      number.isFinite = true ∧ ¬ (number.negative = true ∧ number.magnitude = 0) := by
  by_cases finite : number.isFinite = true
  · have written : (Literal.number number).value.text = number.text := by
      rw [value, if_pos finite, Json.text]
    rw [written, Double.read?_of_numberText finite number.numberText_text, Option.some_inj,
      Literal.number.injEq, Double.unsignedZero_eq_iff]
    exact (and_iff_right finite).symm
  · -- An infinite number has no value but `null`, which is read as such.
    have written : (Literal.number number).value.text = "null" := by
      rw [value, if_neg finite, Json.text]
    have read : read? "null" = some .null := by decide
    rw [written, read]
    simp [finite]

example :
    Literal.read? (Literal.number ⟨true, 0, Nat.zero_le _⟩).value.text =
      some (.number ⟨false, 0, Nat.zero_le _⟩) := by
  decide +kernel

end Template
