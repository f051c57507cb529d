import Template.Proofs.Double.Shortest

/-!
# Numbers as text

The rule by which JavaScript turns a number into a string has two parts.  Which digits are
written is a matter of rounding (`IsShortest`), and how they are written depends on the place of
the point among them (`Layout`).  `numberText_text` says that the text of every number follows
both parts.
-/

namespace Template.Double

/-- The text of a number with given digits and a given number of them before the point.  The
rule has one form for each place of the point: after the last digit, among the digits, before
the first, and too far away to be shown. -/
inductive Layout (digits : List Char) (point : Int) : List Char → Prop where
  | integer (reaches : digits.length ≤ point) (near : point ≤ 21) :
      Layout digits point (digits ++ List.replicate (point - digits.length).toNat '0')
  | inside (after : 0 < point) (before : point < digits.length) (near : point ≤ 21) :
      Layout digits point (digits.take point.toNat ++ '.' :: digits.drop point.toNat)
  | fraction (near : -6 < point) (before : point ≤ 0) :
      Layout digits point ('0' :: '.' :: (List.replicate (-point).toNat '0' ++ digits))
  | single {digit sign : Char} (alone : digits = [digit]) (far : point ≤ -6 ∨ 21 < point)
      (signed : sign = if point - 1 < 0 then '-' else '+') :
      Layout digits point (digit :: 'e' :: sign :: Nat.toDigits 10 (point - 1).natAbs)
  | several {first second sign : Char} {rest : List Char} (more : digits = first :: second :: rest)
      (far : point ≤ -6 ∨ 21 < point) (signed : sign = if point - 1 < 0 then '-' else '+') :
      Layout digits point
        (first :: '.' :: second :: rest ++ 'e' :: sign :: Nat.toDigits 10 (point - 1).natAbs)

/-- The text of a number without its sign. -/
inductive MagnitudeText : Nat → List Char → Prop where
  | zero : MagnitudeText 0 ['0']
  | infinity : MagnitudeText infinite "Infinity".toList
  | finite {magnitude : Nat} {decimal : Decimal} {text : List Char}
      (shortest : IsShortest magnitude decimal)
      (layout : Layout decimal.digits (decimal.leading + 1) text) : MagnitudeText magnitude text

/-- The text of a number; zero has no sign. -/
def NumberText (number : Double) (text : String) : Prop :=
  ∃ body, MagnitudeText number.magnitude body ∧
    text.toList = if number.negative ∧ number.magnitude ≠ 0 then '-' :: body else body

theorem layout_positional {digits : List Char} {point : Int} (near : -6 < point ∧ point ≤ 21) :
    Layout digits point (positional digits point) := by
  rw [positional]
  split
  next before => exact .fraction near.1 before
  next after =>
    obtain ⟨count, rfl⟩ := Int.eq_ofNat_of_zero_le (show 0 ≤ point by omega)
    split
    next reaches =>
      have zeros : count - digits.length = ((count : Int) - digits.length).toNat := by omega
      rw [Int.toNat_natCast, zeros]
      exact .integer (by omega) near.2
    next inside => exact .inside (by omega) (by omega) near.2

theorem layout_scientific {digits : List Char} {point : Int} (nonempty : digits ≠ [])
    (far : point ≤ -6 ∨ 21 < point) : Layout digits point (scientific digits (point - 1)) := by
  match digits with
  | [] => contradiction
  | [digit] => exact .single rfl far rfl
  | first :: second :: rest =>
    have notSingle : ¬ (first :: second :: rest).length ≤ 1 := by simp
    rw [scientific, if_neg notSingle]
    exact .several rfl far rfl

/-- The text of a decimal is laid out by the place of its point. -/
theorem layout_decimalText {decimal trimmed : Decimal}
    (digitsEq : trimmed.digits = dropZeros decimal.digits)
    (leadingEq : trimmed.leading = decimal.leading) :
    Layout trimmed.digits (trimmed.leading + 1) (decimalText decimal) := by
  rw [decimalText, ← digitsEq, ← leadingEq]
  split
  next near =>
    rw [positionalFrom, positionalBelow] at near
    exact layout_positional (by omega)
  next far =>
    rw [positionalFrom, positionalBelow] at far
    have nonempty : trimmed.digits ≠ [] := List.ne_nil_of_length_pos Nat.length_toDigits_pos
    have layout : Layout trimmed.digits (trimmed.leading + 1) _ :=
      layout_scientific nonempty (by omega)
    rwa [add_sub_cancel_right] at layout

/-- Digits are written for the magnitudes between zero and infinity. -/
theorem magnitudeText {magnitude : Nat} (atMost : magnitude ≤ infinite) :
    MagnitudeText magnitude
      (if magnitude == 0 then ['0'] else if magnitude == infinite then "Infinity".toList
        else decimalText (shortest magnitude)) := by
  split
  next zero =>
    rw [eq_of_beq zero]
    exact .zero
  next nonzero =>
    split
    next infinity =>
      rw [eq_of_beq infinity]
      exact .infinity
    next finite =>
      have positive : 0 < magnitude := Nat.pos_of_ne_zero (by simpa using nonzero)
      have below : magnitude < infinite := lt_of_le_of_ne atMost (by simpa using finite)
      obtain ⟨decimal, isShortest, digitsEq, leadingEq⟩ := exists_isShortest positive below
      exact .finite isShortest (layout_decimalText digitsEq leadingEq)

/-- The text of a number is the one that JavaScript writes. -/
theorem numberText_text (number : Double) : NumberText number number.text := by
  refine ⟨_, magnitudeText number.magnitude_le, ?_⟩
  rw [text, String.toList_ofList]
  simp only [Bool.and_eq_true, bne_iff_ne]

end Template.Double
