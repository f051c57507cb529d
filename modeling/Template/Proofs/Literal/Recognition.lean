import Template.Proofs.Literal.Numerals
import Template.Proofs.Literal.Strings

/-!
# Recognised literals

A source that is recognised is a literal of JavaScript with the value that was read if and only
if it is strict (`isLiteral_read?_iff`).  The sources that are not are the ones with an escape or
a line end that the reader sees differently, a zero before another digit, a sign behind the mark
of base sixteen, or a control character among the blanks behind a minus sign.
-/

namespace Template.Literal

open Template.Text

variable {text rest between : List Char} {literal : Literal}

/-- Whether a text that is recognised is a literal of the grammar with the value that is read. -/
def isStrict : List Char → Bool
  | [] => true
  | first :: rest =>
    if [doubleQuote, singleQuote, backtick].contains first then isStrictFrom first 0 rest
    else if first == '-' then
      !(rest.takeWhile Text.isBlank).contains '\u0085' && isStrictNumeral (stripStart rest)
    else isStrictNumeral (first :: rest)

/-! ## The first character of a number -/

theorem Numeral.exists_head {number : ℚ} (numeral : Numeral text number) :
    ∃ first rest, text = first :: rest ∧ (first.isDigit = true ∨ first = '.') := by
  have ofWhole {whole rest : List Char} {value : Nat} (wholePart : WholePart whole value) :
      ∃ first others, whole ++ rest = first :: others ∧ (first.isDigit = true ∨ first = '.') := by
    cases wholePart with
    | zero => exact ⟨'0', rest, rfl, .inl rfl⟩
    | digits written _ =>
      obtain ⟨first, others, digit, rfl, isDigit⟩ := written.exists_head
      exact ⟨first, others ++ rest, rfl, .inl isDigit.isDigit⟩
  cases numeral with
  | integer wholePart _ => exact ofWhole wholePart
  | pointed wholePart _ _ => exact ofWhole wholePart
  | fraction => exact ⟨'.', _, rfl, .inr rfl⟩
  | based => exact ⟨'0', _, rfl, .inl rfl⟩

theorem isBlank_of_starts {first : Char} (starts : first.isDigit = true ∨ first = '.') :
    Text.isBlank first = false := by
  rcases starts with digit | rfl
  · exact isBlank_of_isDigit digit
  · rfl

/-- What is no mark and no sign is left to the numbers. -/
theorem isStrict_of_head {first : Char} (starts : first.isDigit = true ∨ first = '.') :
    isStrict (first :: rest) = isStrictNumeral (first :: rest) := by
  have noMark : ¬ [doubleQuote, singleQuote, backtick].contains first = true := by
    simp only [List.contains_eq_mem, decide_eq_true_eq, List.mem_cons, List.not_mem_nil, or_false]
    rintro (rfl | rfl | rfl) <;> exact absurd starts (by decide)
  have noMinus : ¬ (first == '-') = true := by
    rw [beq_iff_eq]
    rintro rfl
    exact absurd starts (by decide)
  rw [isStrict, if_neg noMark, if_neg noMinus]

/-! ## From the grammar -/

/-- White space of the grammar behind a minus sign does not matter to strictness. -/
theorem isStrict_negated {number : ℚ} (spaced : ∀ char ∈ between, char.toNat ∈ spaces)
    (numeral : Numeral text number) : isStrict ('-' :: (between ++ text)) = true := by
  rw [isStrict, if_neg (by decide), if_pos (beq_self_eq_true '-')]
  induction between with
  | nil =>
    obtain ⟨first, rest, rfl, starts⟩ := numeral.exists_head
    have visible : ¬ Text.isBlank first = true := by simp [isBlank_of_starts starts]
    rw [List.nil_append, List.takeWhile_cons_of_neg visible, stripStart,
      List.dropWhile_cons_of_neg visible, numeral.isStrictNumeral]
    rfl
  | cons char between inductionHypothesis =>
    obtain ⟨isSpace, others⟩ := List.forall_mem_cons.mp spaced
    by_cases blank : Text.isBlank char = true
    · have noControl : char ≠ '\u0085' := by
        rintro rfl
        exact absurd isSpace (by decide)
      rw [List.cons_append, List.takeWhile_cons_of_pos blank, stripStart,
        List.dropWhile_cons_of_pos blank, List.contains_cons,
        beq_eq_false_iff_ne.mpr noControl.symm, Bool.false_or]
      exact inductionHypothesis others
    · have noZero : char ≠ '0' := by
        rintro rfl
        exact absurd isSpace (by decide)
      rw [List.cons_append, List.takeWhile_cons_of_neg blank, stripStart,
        List.dropWhile_cons_of_neg blank, isStrictNumeral_of_head? (by simpa using noZero)]
      rfl

theorem ofChars?_quoted {mark : Char} (quotes : mark ∈ [doubleQuote, singleQuote, backtick]) :
    ofChars? (mark :: rest) =
      (stringFrom mark 0 rest).map fun value => .text (String.ofList value) := by
  simp only [List.mem_cons, List.not_mem_nil, or_false] at quotes
  have noKeyword : mark ≠ 't' ∧ mark ≠ 'f' ∧ mark ≠ 'n' := by
    rcases quotes with rfl | rfl | rfl <;> decide
  have isMark : (mark == doubleQuote || mark == singleQuote || mark == backtick) = true := by
    simpa [or_assoc] using quotes
  simp [ofChars?, noKeyword, isMark]

/-! ## From the reader -/

theorem mem_spaces {char : Char} (blank : Text.isBlank char = true) (noControl : char ≠ '\u0085') :
    char.toNat ∈ spaces := by
  have noCode : char.toNat ≠ 0x85 := fun same => noControl (Char.toNat_inj.mp same)
  simp only [Text.isBlank, Bool.or_eq_true, Bool.and_eq_true, decide_eq_true_eq,
    beq_iff_eq] at blank
  simp only [spaces, List.mem_cons, List.not_mem_nil, or_false]
  omega

/-- A number that is read with its sign. -/
theorem isLiteral_of_number? {first : Char} {number : Double}
    (read : number? (first :: rest) = some number)
    (strict : (if first == '-' then !(rest.takeWhile Text.isBlank).contains '\u0085' &&
      isStrictNumeral (stripStart rest) else isStrictNumeral (first :: rest)) = true) :
    IsLiteral (first :: rest) (.number number) := by
  unfold number? at read
  split at read
  next digits same =>
    obtain ⟨rfl, rfl⟩ := List.cons.inj same
    rw [if_pos (beq_self_eq_true '-'), Bool.and_eq_true] at strict
    obtain ⟨magnitude, magnitudeRead, rfl⟩ := Option.map_eq_some_iff.mp read
    obtain ⟨positive, exact, numeral, nearest⟩ :=
      numeral_of_unsignedNumber? magnitudeRead strict.2
    have split := List.takeWhile_append_dropWhile (p := Text.isBlank) (l := rest)
    rw [← split]
    refine .negated ?_ numeral (by simp [Double.neg, positive]) nearest
    intro char membership
    refine mem_spaces (List.mem_takeWhile_imp membership) ?_
    rintro rfl
    simp [membership] at strict
  next noMinus =>
    have notMinus : ¬ (first == '-') = true := by
      rw [beq_iff_eq]
      rintro rfl
      exact noMinus rest rfl
    rw [if_neg notMinus] at strict
    obtain ⟨positive, exact, numeral, nearest⟩ := numeral_of_unsignedNumber? read strict
    exact .number numeral positive nearest

theorem isLiteral_of_isStrict (read : ofChars? text = some literal)
    (strict : isStrict text = true) : IsLiteral text literal := by
  unfold ofChars? at read
  split at read
  next same =>
    obtain rfl := Option.some.inj read
    rw [eq_of_beq same]
    exact .true
  split at read
  next same =>
    obtain rfl := Option.some.inj read
    rw [eq_of_beq same]
    exact .false
  split at read
  next same =>
    obtain rfl := Option.some.inj read
    rw [eq_of_beq same]
    exact .null
  split at read
  next => contradiction
  next first rest _ _ _ =>
    split at read
    next isMark =>
      have quotes : first ∈ [doubleQuote, singleQuote, backtick] := by
        simpa [or_assoc] using isMark
      rw [isStrict, if_pos (by simpa using quotes)] at strict
      obtain ⟨value, valueRead, rfl⟩ := Option.map_eq_some_iff.mp read
      refine .text quotes ?_
      rw [String.toList_ofList]
      exact (spells_iff_isStrictFrom quotes valueRead).mpr strict
    next noMark =>
      have noQuotes : ¬ [doubleQuote, singleQuote, backtick].contains first = true := by
        simpa [or_assoc] using noMark
      rw [isStrict, if_neg noQuotes] at strict
      obtain ⟨number, numberRead, rfl⟩ := Option.map_eq_some_iff.mp read
      exact isLiteral_of_number? numberRead strict

theorem isLiteral_iff_isStrict (read : ofChars? text = some literal) :
    IsLiteral text literal ↔ isStrict text = true := by
  constructor
  · intro isLiteral
    cases isLiteral with
    | true => decide
    | false => decide
    | null => decide
    | text quotes spelled =>
      rw [ofChars?_quoted quotes] at read
      obtain ⟨value, valueRead, textEq⟩ := Option.map_eq_some_iff.mp read
      obtain rfl := Literal.text.inj textEq
      rw [String.toList_ofList] at spelled
      rw [isStrict, if_pos (by simpa using quotes)]
      exact (spells_iff_isStrictFrom quotes valueRead).mp spelled
    | number numeral positive nearest =>
      obtain ⟨first, rest, rfl, starts⟩ := numeral.exists_head
      rw [isStrict_of_head starts]
      exact numeral.isStrictNumeral
    | negated spaced numeral negative nearest => exact isStrict_negated spaced numeral
  · exact isLiteral_of_isStrict read

/-- A source that is recognised is a literal of JavaScript with the value that was read exactly if
it is strict. -/
theorem isLiteral_read?_iff {source : String} (read : read? source = some literal) :
    IsLiteral (strip source.toList) literal ↔ isStrict (strip source.toList) = true :=
  isLiteral_iff_isStrict read

theorem isLiteral_read?_iff_escaped :
    IsLiteral (strip " 'it\\'s \\u{41}\\x42\\\n\\0' ".toList) (.text "it's AB\x00") ∧
      IsLiteral (strip "- 0x1F".toList) (.number (Double.ofInt (-31))) := by
  have escaped : read? " 'it\\'s \\u{41}\\x42\\\n\\0' " = some (.text "it's AB\x00") := by
    decide +kernel
  have negated : read? "- 0x1F" = some (.number (Double.ofInt (-31))) := by decide +kernel
  exact ⟨(isLiteral_read?_iff escaped).mpr (by decide +kernel),
    (isLiteral_read?_iff negated).mpr (by decide +kernel)⟩

/-- A source that is recognised and not strict is no literal with the value that is read. -/
theorem exists_not_isLiteral {source : String} (recognised : (read? source).isSome = true)
    (loose : isStrict (strip source.toList) = false) :
    ∃ literal, read? source = some literal ∧ ¬ IsLiteral (strip source.toList) literal := by
  obtain ⟨literal, read⟩ := Option.isSome_iff_exists.mp recognised
  refine ⟨literal, read, ?_⟩
  rw [isLiteral_iff_isStrict read, loose]
  exact Bool.false_ne_true

/-- Leading zeros, signs among digits, digits after a backslash and ends of lines. -/
theorem isLiteral_read?_iff_loose :
    (∃ literal, read? "012" = some literal ∧ ¬ IsLiteral (strip "012".toList) literal) ∧
    (∃ literal, read? "0x-5" = some literal ∧ ¬ IsLiteral (strip "0x-5".toList) literal) ∧
    (∃ literal, read? "'\\x+1'" = some literal ∧ ¬ IsLiteral (strip "'\\x+1'".toList) literal) ∧
    (∃ literal, read? "'\\08'" = some literal ∧ ¬ IsLiteral (strip "'\\08'".toList) literal) ∧
    (∃ literal, read? "'a\nb'" = some literal ∧ ¬ IsLiteral (strip "'a\nb'".toList) literal) ∧
    (∃ literal, read? "'a\\\r\nb'" = some literal ∧
      ¬ IsLiteral (strip "'a\\\r\nb'".toList) literal) := by
  refine ⟨?_, ?_, ?_, ?_, ?_, ?_⟩ <;>
    exact exists_not_isLiteral (by decide +kernel) (by decide +kernel)

end Template.Literal
