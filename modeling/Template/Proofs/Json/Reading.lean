import Template.Proofs.Json.Spelling

/-!
# Reading spellings

The reader takes every spelling of a value off the front of a text and leaves the rest.
This is shown token by token, then for entries between brackets, and for values by
induction on their spelling.  A number has to be followed by something that does not
continue it, which is what stands after a value in any text.
-/

namespace Template.Json

theorem depthItems_le_iff {items : List Json} {depth : Nat} :
    depthItems items ≤ depth ↔ ∀ item ∈ items, item.depth ≤ depth := by
  induction items with
  | nil => simp [depthItems]
  | cons item rest inductionHypothesis =>
      rw [depthItems, Nat.max_le, inductionHypothesis, List.forall_mem_cons]

theorem depthMembers_le_iff {members : List (String × Json)} {depth : Nat} :
    depthMembers members ≤ depth ↔ ∀ member ∈ members, member.2.depth ≤ depth := by
  induction members with
  | nil => simp [depthMembers]
  | cons member rest inductionHypothesis =>
      rw [depthMembers, Nat.max_le, inductionHypothesis, List.forall_mem_cons]

namespace Read

open Template.Text

/-! ## White space -/

theorem isSpace_of_mem {char : Char} (membership : char ∈ [' ', '\t', '\n', '\r']) :
    isSpace char = true := by
  revert membership
  simp only [List.mem_cons, List.not_mem_nil, or_false]
  rintro (rfl | rfl | rfl | rfl) <;> rfl

theorem skipSpace_append {space : List Char} (spaces : Spaces space) (text : List Char) :
    skipSpace (space ++ text) = skipSpace text :=
  List.dropWhile_append_of_pos fun char membership => isSpace_of_mem (spaces char membership)

theorem skipSpace_cons {char : Char} (visible : isSpace char = false) (rest : List Char) :
    skipSpace (char :: rest) = char :: rest :=
  List.dropWhile_cons_of_neg (by rw [visible]; exact Bool.false_ne_true)

/-! ## Strings -/

theorem stringFrom_skip (skipped rest : List Char) :
    stringFrom skipped.length (skipped ++ rest) = stringFrom 0 rest := by
  induction skipped with
  | nil => rfl
  | cons char others inductionHypothesis =>
      rw [List.length_cons, List.cons_append, stringFrom, inductionHypothesis]

theorem codeUnit_append {digits : List Char} {value : Nat} (written : FourDigits digits value)
    (rest : List Char) : codeUnit (digits ++ rest) = .ok value := by
  obtain ⟨length, read⟩ := written
  obtain ⟨first, second, third, fourth, rfl⟩ : ∃ first second third fourth,
      digits = [first, second, third, fourth] := by
    match digits, length with
    | [first, second, third, fourth], _ => exact ⟨first, second, third, fourth, rfl⟩
  have enough : ¬ byteSize (([first, second, third, fourth] ++ rest).take 4) < 4 := by
    have size (char : Char) := char.utf8Size_pos
    have sizes := And.intro (And.intro (size first) (size second))
      (And.intro (size third) (size fourth))
    simp only [List.cons_append, List.nil_append, List.take_succ_cons, List.take_zero,
      byteSize_cons, byteSize_nil]
    omega
  unfold codeUnit
  rw [if_neg enough]
  simp only [List.cons_append, List.nil_append, read]

theorem escape_letter {mark char : Char} (known : (mark, char) ∈ letterEscapes)
    (rest : List Char) : escape (mark :: rest) = .ok (char, 1) := by
  revert known
  simp only [letterEscapes, List.mem_cons, List.not_mem_nil, or_false, Prod.mk.injEq]
  rintro (⟨rfl, rfl⟩ | ⟨rfl, rfl⟩ | ⟨rfl, rfl⟩ | ⟨rfl, rfl⟩ | ⟨rfl, rfl⟩ | ⟨rfl, rfl⟩ |
    ⟨rfl, rfl⟩ | ⟨rfl, rfl⟩) <;> rfl

/-- A character is no code unit of a pair. -/
theorem isHigh_isLow_toNat (char : Char) :
    isHigh char.toNat = false ∧ isLow char.toNat = false := by
  have valid : char.toNat < 0xD800 ∨ 0xDFFF < char.toNat ∧ char.toNat < 0x110000 := char.valid
  simp only [isHigh, isLow, Bool.and_eq_false_iff, decide_eq_false_iff_not]
  omega

theorem escape_unit {char : Char} {digits : List Char} (written : FourDigits digits char.toNat)
    (rest : List Char) : escape ('u' :: (digits ++ rest)) = .ok (char, 5) := by
  obtain ⟨notHigh, notLow⟩ := isHigh_isLow_toNat char
  simp [escape, codeUnit_append written, notHigh, notLow, Char.ofNat_toNat, bind, Except.bind]

theorem escape_pair {char : Char} {high low : List Char} (above : 0x10000 ≤ char.toNat)
    (highWritten : FourDigits high (0xD800 + (char.toNat - 0x10000) / 0x400))
    (lowWritten : FourDigits low (0xDC00 + (char.toNat - 0x10000) % 0x400)) (rest : List Char) :
    escape ('u' :: (high ++ backslash :: 'u' :: (low ++ rest))) = .ok (char, 11) := by
  have valid : char.toNat < 0xD800 ∨ 0xDFFF < char.toNat ∧ char.toNat < 0x110000 := char.valid
  have highUnit : isHigh (0xD800 + (char.toNat - 0x10000) / 0x400) = true := by
    simp only [isHigh, Bool.and_eq_true, decide_eq_true_eq]
    omega
  have notLow : isLow (0xD800 + (char.toNat - 0x10000) / 0x400) = false := by
    simp only [isLow, Bool.and_eq_false_iff, decide_eq_false_iff_not]
    omega
  have lowUnitRead : lowUnit (backslash :: 'u' :: (low ++ rest)) =
      .ok (0xDC00 + (char.toNat - 0x10000) % 0x400) := by
    have isLowUnit : isLow (0xDC00 + (char.toNat - 0x10000) % 0x400) = true := by
      simp only [isLow, Bool.and_eq_true, decide_eq_true_eq]
      omega
    simp [lowUnit, codeUnit_append lowWritten, isLowUnit, bind, Except.bind]
  have skipped : (high ++ backslash :: 'u' :: (low ++ rest)).drop 4 =
      backslash :: 'u' :: (low ++ rest) := by
    rw [← highWritten.1, List.drop_left]
  have joined : pairChar (0xD800 + (char.toNat - 0x10000) / 0x400)
      (0xDC00 + (char.toNat - 0x10000) % 0x400) = char := by
    have value : (0xD800 + (char.toNat - 0x10000) / 0x400 - 0xD800) * 0x400 +
        (0xDC00 + (char.toNat - 0x10000) % 0x400 - 0xDC00) + 0x10000 = char.toNat := by
      omega
    rw [pairChar, value, Char.ofNat_toNat]
  simp [escape, codeUnit_append highWritten, highUnit, notLow, skipped, lowUnitRead, joined,
    bind, Except.bind]

/-- The spelling of a character stands for that character. -/
theorem stringFrom_char {char : Char} {spelling : List Char}
    (spelled : CharSpelling char spelling) (rest : List Char) :
    stringFrom 0 (spelling ++ rest) = (do
      let (others, after) ← stringFrom 0 rest
      .ok (char :: others, after)) := by
  have escaped {escaping : List Char} (read : escape (escaping ++ rest) =
      .ok (char, escaping.length)) : stringFrom 0 (backslash :: (escaping ++ rest)) = (do
        let (others, after) ← stringFrom 0 rest
        .ok (char :: others, after)) := by
    have notQuote : (backslash == doubleQuote) = false := rfl
    rw [stringFrom]
    simp [notQuote, read, stringFrom_skip, bind, Except.bind]
  cases spelled with
  | plain plain =>
      obtain ⟨notQuote, notBackslash, printable⟩ := plain
      rw [List.singleton_append, stringFrom]
      simp [notQuote, notBackslash, Nat.not_lt.mpr printable]
  | letter known => exact escaped (escape_letter known rest)
  | unit written =>
      apply escaped
      rw [List.cons_append, List.length_cons, written.1]
      exact escape_unit written rest
  | @pair _ high low above highWritten lowWritten =>
      have length : ('u' :: (high ++ backslash :: 'u' :: low)).length = 11 := by
        simp [highWritten.1, lowWritten.1]
      have read := escape_pair above highWritten lowWritten rest
      apply escaped
      rw [length, List.cons_append, List.append_assoc, List.cons_append, List.cons_append]
      exact read

theorem stringFrom_chars {chars text : List Char} (spelled : CharsSpelling chars text)
    (rest : List Char) : stringFrom 0 (text ++ doubleQuote :: rest) = .ok (chars, rest) := by
  induction spelled with
  | nil => rfl
  | cons first others inductionHypothesis =>
      rw [List.append_assoc, stringFrom_char first, inductionHypothesis]
      rfl

theorem string_append {value : String} {text : List Char}
    (spelled : CharsSpelling value.toList text) (rest : List Char) :
    string (text ++ doubleQuote :: rest) = .ok (value, rest) := by
  rw [string, stringFrom_chars spelled]
  exact congrArg (fun read => Except.ok (read, rest)) String.ofList_toList

theorem name_append {value : String} {text : List Char} (spelled : StringSpelling value text)
    (rest : List Char) : name (text ++ rest) = .ok (value, rest) := by
  obtain ⟨chars⟩ := spelled
  rw [List.cons_append, List.append_assoc, List.singleton_append, name]
  exact string_append chars rest

/-! ## Numbers -/

/-- What may follow a value: the end of the text, white space, a comma or a closing
bracket. -/
def Delimits (rest : List Char) : Prop :=
  ∀ char ∈ rest.head?, char ∈ [' ', '\t', '\n', '\r', ',', ']', '\x7d']

/-- No digit follows. -/
def NoDigit (rest : List Char) : Prop :=
  ∀ char ∈ rest.head?, char.isDigit = false

theorem Delimits.noDigit {rest : List Char} (delimits : Delimits rest) : NoDigit rest := by
  intro char membership
  have delimiter := delimits char membership
  simp only [List.mem_cons, List.not_mem_nil, or_false] at delimiter
  obtain rfl | rfl | rfl | rfl | rfl | rfl | rfl := delimiter <;> rfl

theorem Delimits.head_ne {rest : List Char} (delimits : Delimits rest) {char : Char}
    (other : char ∉ [' ', '\t', '\n', '\r', ',', ']', '\x7d']) : rest.head? ≠ some char :=
  fun starts => other (delimits char starts)

theorem delimits_append {space : List Char} (spaces : Spaces space) {rest : List Char}
    (delimits : Delimits rest) : Delimits (space ++ rest) := by
  cases space with
  | nil => exact delimits
  | cons char others =>
      intro head membership
      obtain rfl : char = head := Option.some.inj membership
      exact List.mem_append_left [',', ']', '\x7d'] (spaces char List.mem_cons_self)

theorem digits_append {found rest : List Char} (written : Digits found)
    (noDigit : NoDigit rest) : digits (found ++ rest) = .ok (found, rest) := by
  have stops : rest.takeWhile Char.isDigit = [] ∧ rest.dropWhile Char.isDigit = rest := by
    cases rest with
    | nil => exact ⟨rfl, rfl⟩
    | cons char others =>
        have other := noDigit char rfl
        exact ⟨List.takeWhile_cons_of_neg (by simp [other]),
          List.dropWhile_cons_of_neg (by simp [other])⟩
  rw [digits, List.takeWhile_append_of_pos written.2, List.dropWhile_append_of_pos written.2,
    stops.1, stops.2, List.append_nil]
  simp [written.1]

theorem fraction_append {fraction : Option (List Char)} {text rest : List Char}
    (spelled : FractionSpelling fraction text) (noDigit : NoDigit rest)
    (noPoint : rest.head? ≠ some '.') : Read.fraction (text ++ rest) = .ok (fraction, rest) := by
  cases spelled with
  | missing =>
      rw [List.nil_append, Read.fraction.eq_def]
      split
      · exact absurd rfl noPoint
      · rfl
  | places written =>
      rw [List.cons_append, Read.fraction, digits_append written noDigit]
      rfl

theorem exponent_missing {rest : List Char} (delimits : Delimits rest) :
    Read.exponent rest = .ok (none, rest) := by
  cases rest with
  | nil => rfl
  | cons mark others =>
      have small : mark ≠ 'e' := fun marked => delimits.head_ne (by decide) (congrArg some marked)
      have large : mark ≠ 'E' := fun marked => delimits.head_ne (by decide) (congrArg some marked)
      simp [Read.exponent, small, large]

theorem exponent_append {exponent : Option Int} {text rest : List Char}
    (spelled : ExponentSpelling exponent text) (delimits : Delimits rest) :
    Read.exponent (text ++ rest) = .ok (exponent, rest) := by
  have isMark {mark : Char} (marked : mark ∈ ['e', 'E']) : (mark == 'e' || mark == 'E') = true := by
    simpa using marked
  cases spelled with
  | missing => exact exponent_missing delimits
  | @positive mark sign digits value marked signed written read =>
      have taken := digits_append written delimits.noDigit
      simp only [List.mem_cons, List.not_mem_nil, or_false] at signed
      obtain rfl | rfl := signed
      · -- The first character is a digit, so it is no sign.
        obtain ⟨first, others, rfl⟩ := List.exists_cons_of_ne_nil written.1
        have digit := written.2 first List.mem_cons_self
        simp only [List.nil_append, List.cons_append, Read.exponent, isMark marked,
          ↓reduceIte] at taken ⊢
        split
        · next starts =>
            rw [(List.cons.inj starts).1] at digit
            cases digit
        · next starts =>
            rw [(List.cons.inj starts).1] at digit
            cases digit
        · simp [taken, read, bind, Except.bind]
      · simp [Read.exponent, isMark marked, taken, read, bind, Except.bind]
  | negative marked written read =>
      have taken := digits_append written delimits.noDigit
      simp [Read.exponent, isMark marked, taken, read, bind, Except.bind]

theorem exponent_head {exponent : Option Int} {text rest : List Char}
    (spelled : ExponentSpelling exponent text) (delimits : Delimits rest) :
    NoDigit (text ++ rest) ∧ (text ++ rest).head? ≠ some '.' := by
  have marked {mark : Char} (membership : mark ∈ ['e', 'E']) (others : List Char) :
      NoDigit (mark :: others) ∧ (mark :: others).head? ≠ some '.' := by
    simp only [List.mem_cons, List.not_mem_nil, or_false] at membership
    obtain rfl | rfl := membership
    all_goals
      refine ⟨fun head starts => ?_, by simp⟩
      obtain rfl := Option.some.inj starts
      rfl
  cases spelled with
  | missing => exact ⟨delimits.noDigit, delimits.head_ne (by decide)⟩
  | positive membership => exact marked membership _
  | negative membership => exact marked membership _

theorem fraction_noDigit {fraction : Option (List Char)} {text rest : List Char}
    (spelled : FractionSpelling fraction text) (noDigit : NoDigit rest) :
    NoDigit (text ++ rest) := by
  cases spelled with
  | missing => exact noDigit
  | places =>
      intro head starts
      obtain rfl := Option.some.inj starts
      rfl

/-- A numeral is read from its spelling, and what follows ends it. -/
theorem numeral_append {numeral : Numeral} {text rest : List Char}
    (spelled : NumeralSpelling numeral text) (delimits : Delimits rest) :
    Read.numeral (text ++ rest) = .ok (numeral, rest) := by
  obtain @⟨negative, whole, fractionText, exponentText, fraction, exponent, written, noZero,
    fractionWritten, exponentWritten⟩ := spelled
  obtain ⟨noDigit, noPoint⟩ := exponent_head exponentWritten delimits
  have wholeTaken := digits_append written (fraction_noDigit fractionWritten noDigit)
  have fractionTaken := fraction_append fractionWritten noDigit noPoint
  have exponentTaken := exponent_append exponentWritten delimits
  have notLong : (whole.head? == some '0' && whole.length != 1) = false := by
    simpa using noZero
  cases negative with
  | true =>
      simp [Read.numeral, wholeTaken, notLong, fractionTaken, exponentTaken, bind, Except.bind]
  | false =>
      -- The first character is a digit, so it is no sign.
      obtain ⟨first, others, rfl⟩ := List.exists_cons_of_ne_nil written.1
      have digit := written.2 first List.mem_cons_self
      rw [Read.numeral.eq_def]
      simp only [Bool.false_eq_true, if_false, List.nil_append, List.append_assoc,
        List.cons_append] at wholeTaken ⊢
      split
      · next minus =>
          rw [(List.cons.inj minus).1] at digit
          cases digit
      · simpa [wholeTaken, fractionTaken, exponentTaken, bind, Except.bind] using noZero

theorem number_integer {convert : Numeral → Double} {numeral : Numeral} {value : Int}
    {text rest : List Char} (spelled : NumeralSpelling numeral text)
    (whole : numeral.integer? = some value) (delimits : Delimits rest) :
    number convert (text ++ rest) = .ok (.integer value, rest) := by
  simp [number, numeral_append spelled delimits, whole, bind, Except.bind]

theorem number_float {convert : Numeral → Double} {numeral : Numeral} {text rest : List Char}
    (spelled : NumeralSpelling numeral text) (notWhole : numeral.integer? = none)
    (finite : (convert numeral).isFinite = true) (delimits : Delimits rest) :
    number convert (text ++ rest) = .ok (.float (convert numeral), rest) := by
  simp [number, numeral_append spelled delimits, notWhole, finite, bind, Except.bind]

/-! ## Entries between brackets -/

/-- The brackets that close an array or an object. -/
def Closes (closer : Char) : Prop := closer ∈ [']', '\x7d']

section Entries

variable {α : Type} {closer : Char} {read : Reader α}

theorem Closes.not_space (closes : Closes closer) : isSpace closer = false := by
  simp only [Closes, List.mem_cons, List.not_mem_nil, or_false] at closes
  obtain rfl | rfl := closes <;> rfl

theorem Closes.ne_of_not {char : Char} (closes : Closes closer) (other : ¬ Closes char) :
    char ≠ closer :=
  fun same => other (same ▸ closes)

theorem Closes.delimits (closes : Closes closer) (rest : List Char) :
    Delimits (closer :: rest) := by
  intro char membership
  obtain rfl := Option.some.inj membership
  exact List.mem_append_right [' ', '\t', '\n', '\r', ','] closes

theorem delimits_comma (rest : List Char) : Delimits (',' :: rest) := by
  intro char membership
  obtain rfl := Option.some.inj membership
  decide

/-- A reader takes an entry off the front of a text, whatever follows it.  The entry
starts neither with white space nor with a closing bracket. -/
structure Takes (read : Reader α) (entry : α) (text : List Char) : Prop where
  starts : ∃ char tail, text = char :: tail ∧ isSpace char = false ∧ ¬ Closes char
  takes : ∀ rest, Delimits rest → read (text ++ rest) = .ok (entry, rest)

theorem next_closed {space : List Char} (closes : Closes closer) (spaces : Spaces space)
    (first : Bool) (rest : List Char) :
    next closer first (space ++ closer :: rest) = .ok (.closed rest) := by
  rw [next, skipSpace_append spaces, skipSpace_cons closes.not_space]
  simp

theorem next_entry {before text : List Char} {entry : α} (closes : Closes closer)
    (spaces : Spaces before) (taken : Takes read entry text) (rest : List Char) :
    next closer true (before ++ (text ++ rest)) = .ok (.entry (text ++ rest)) := by
  obtain ⟨char, tail, rfl, visible, other⟩ := taken.starts
  rw [next, skipSpace_append spaces, List.cons_append, skipSpace_cons visible]
  simp [closes.ne_of_not other]

/-- After a comma the next entry is found as the first one is found. -/
theorem next_comma {after text found : List Char} (closes : Closes closer)
    (spaces : Spaces after) (later : next closer true text = .ok (.entry found)) :
    next closer false (after ++ ',' :: text) = .ok (.entry found) := by
  have sought : skipSpace text = found := by
    rw [next] at later
    split at later
    · cases later
    · next char rest visible =>
        split at later
        · cases later
        · injection later with same
          injection same with same
          rw [visible, same]
  have comma : ',' ≠ closer := closes.ne_of_not (by simp [Closes])
  rw [next, skipSpace_append spaces, skipSpace_cons rfl]
  simp [comma, sought]

theorem next_separated {entry : α} {entries : List α} {text : List Char}
    (closes : Closes closer) (separated : Separated (Takes read) (entry :: entries) text)
    (rest : List Char) : ∃ found, next closer true (text ++ rest) = .ok (.entry found) := by
  cases separated with
  | last spacesBefore taken _ =>
      rw [List.append_assoc, List.append_assoc]
      exact ⟨_, next_entry closes spacesBefore taken _⟩
  | more spacesBefore taken _ _ =>
      rw [List.append_assoc, List.append_assoc]
      exact ⟨_, next_entry closes spacesBefore taken _⟩

theorem entriesFrom_comma {after text found : List Char} (closes : Closes closer)
    (spaces : Spaces after) (later : next closer true text = .ok (.entry found)) (fuel : Nat) :
    entriesFrom closer read fuel false (after ++ ',' :: text) =
      entriesFrom closer read fuel true text := by
  cases fuel with
  | zero => rfl
  | succ fuel => rw [entriesFrom, entriesFrom, next_comma closes spaces later, later]

/-- One entry is taken, and reading goes on behind it. -/
theorem entriesFrom_entry {before text : List Char} {entry : α} (closes : Closes closer)
    (spaces : Spaces before) (taken : Takes read entry text) {following : List Char}
    (delimits : Delimits following) (fuel : Nat) :
    entriesFrom closer read (fuel + 1) true (before ++ (text ++ following)) = (do
      let (others, rest) ← entriesFrom closer read fuel false following
      .ok (entry :: others, rest)) := by
  rw [entriesFrom, next_entry closes spaces taken]
  simp [taken.takes following delimits, bind, Except.bind]

theorem entriesFrom_closed {space : List Char} (closes : Closes closer) (spaces : Spaces space)
    (first : Bool) (rest : List Char) {fuel : Nat} (enough : 0 < fuel) :
    entriesFrom closer read fuel first (space ++ closer :: rest) = .ok ([], rest) := by
  obtain ⟨fuel, rfl⟩ := Nat.exists_eq_add_one_of_ne_zero (Nat.ne_of_gt enough)
  rw [entriesFrom, next_closed closes spaces]
  rfl

/-- Entries with commas between them are read one by one. -/
theorem entriesFrom_separated {entries : List α} {text : List Char} (closes : Closes closer)
    (separated : Separated (Takes read) entries text) (rest : List Char) {fuel : Nat}
    (enough : entries.length < fuel) :
    entriesFrom closer read fuel true (text ++ closer :: rest) = .ok (entries, rest) := by
  induction separated generalizing fuel with
  | empty spaces => exact entriesFrom_closed closes spaces true rest enough
  | last spacesBefore taken spacesAfter =>
      obtain ⟨fuel, rfl⟩ := Nat.exists_eq_add_one_of_ne_zero (Nat.ne_zero_of_lt enough)
      have delimits := delimits_append spacesAfter (closes.delimits rest)
      rw [List.append_assoc, List.append_assoc,
        entriesFrom_entry closes spacesBefore taken delimits,
        entriesFrom_closed closes spacesAfter false rest (Nat.lt_of_succ_lt_succ enough)]
      rfl
  | @more _ _ _ _ _ _ others spacesBefore taken spacesAfter later inductionHypothesis =>
      obtain ⟨fuel, rfl⟩ := Nat.exists_eq_add_one_of_ne_zero (Nat.ne_zero_of_lt enough)
      obtain ⟨found, sought⟩ := next_separated closes later (closer :: rest)
      have delimits := delimits_append spacesAfter (delimits_comma (others ++ closer :: rest))
      rw [List.append_assoc, List.append_assoc, List.append_assoc, List.cons_append,
        entriesFrom_entry closes spacesBefore taken delimits,
        entriesFrom_comma closes spacesAfter sought,
        inductionHypothesis (Nat.lt_of_succ_lt_succ enough)]
      rfl

theorem length_le_separated {entries : List α} {text : List Char}
    (separated : Separated (Takes read) entries text) : entries.length ≤ text.length := by
  induction separated with
  | empty => exact Nat.zero_le _
  | last _ taken _ =>
      obtain ⟨char, tail, rfl, -⟩ := taken.starts
      simp only [List.length_append, List.length_cons, List.length_nil]
      omega
  | more _ taken _ _ inductionHypothesis =>
      obtain ⟨char, tail, rfl, -⟩ := taken.starts
      simp only [List.length_append, List.length_cons] at inductionHypothesis ⊢
      omega

theorem entries_separated {entries : List α} {text : List Char} (closes : Closes closer)
    (separated : Separated (Takes read) entries text) (rest : List Char) :
    Read.entries closer read true (text ++ closer :: rest) = .ok (entries, rest) := by
  apply entriesFrom_separated closes separated rest
  have bounded := length_le_separated separated
  rw [List.length_append]
  omega

end Entries

/-! ## Values -/

section Values

variable {convert : Numeral → Double} {nested : Option (Reader Json)}

/-- A numeral starts with a sign or a digit. -/
def StartsNumeral (char : Char) : Prop := char = '-' ∨ char.isDigit = true

theorem StartsNumeral.ne {char : Char} (starts : StartsNumeral char) (other : Char)
    (no : other ≠ '-' ∧ other.isDigit = false) : char ≠ other := by
  rintro rfl
  simp [StartsNumeral, no.1, no.2] at starts

theorem StartsNumeral.visible {char : Char} (starts : StartsNumeral char) :
    isSpace char = false := by
  simp [isSpace, starts.ne ' ' (by decide), starts.ne '\t' (by decide),
    starts.ne '\n' (by decide), starts.ne '\r' (by decide)]

theorem valueWith_number {char : Char} (starts : StartsNumeral char) (rest : List Char) :
    valueWith convert nested (char :: rest) = number convert (char :: rest) := by
  have numeric : (char == '-' || char.isDigit) = true := by
    simpa [StartsNumeral] using starts
  rw [valueWith, skipSpace_cons starts.visible]
  simp [numeric, starts.ne 'n' (by decide), starts.ne 't' (by decide),
    starts.ne 'f' (by decide), starts.ne doubleQuote (by decide)]

theorem numeral_starts {numeral : Numeral} {text : List Char}
    (spelled : NumeralSpelling numeral text) :
    ∃ char tail, text = char :: tail ∧ StartsNumeral char := by
  obtain @⟨negative, whole, _, _, _, _, written, _, _, _⟩ := spelled
  cases negative with
  | true => exact ⟨'-', _, rfl, .inl rfl⟩
  | false =>
      obtain ⟨first, others, rfl⟩ := List.exists_cons_of_ne_nil written.1
      exact ⟨first, _, rfl, .inr (written.2 first List.mem_cons_self)⟩

/-- A number is taken as a value where it is taken as a number. -/
theorem takes_number {numeral : Numeral} {json : Json} {text : List Char}
    (spelled : NumeralSpelling numeral text)
    (taken : ∀ rest, Delimits rest → number convert (text ++ rest) = .ok (json, rest)) :
    Takes (valueWith convert nested) json text := by
  obtain ⟨char, tail, rfl, starts⟩ := numeral_starts spelled
  have other : ¬ Closes char := by
    simp [Closes, starts.ne ']' (by decide), starts.ne '\x7d' (by decide)]
  refine ⟨⟨char, tail, rfl, starts.visible, other⟩, fun rest delimits => ?_⟩
  rw [List.cons_append, valueWith_number starts, ← List.cons_append, taken rest delimits]

theorem takes_string {value : String} {text : List Char} (spelled : StringSpelling value text) :
    Takes (valueWith convert nested) (.string value) text := by
  obtain ⟨chars⟩ := spelled
  refine ⟨⟨doubleQuote, _, rfl, rfl, by simp [Closes, doubleQuote]⟩, fun rest _ => ?_⟩
  rw [List.cons_append, List.append_assoc, List.singleton_append, valueWith,
    skipSpace_cons rfl]
  simp only [show (doubleQuote == 'n') = false from rfl, show (doubleQuote == 't') = false from rfl,
    show (doubleQuote == 'f') = false from rfl, beq_self_eq_true, string_append chars]
  rfl

/-- Entries in brackets are taken as a value where the opening bracket leads to reading
entries. -/
theorem takes_bracketed {α : Type} {opener closer : Char} {entry : Reader α}
    {wrap : List α → Json} {entries : List α} {text : List Char} (closes : Closes closer)
    (visible : isSpace opener = false) (opens : ¬ Closes opener)
    (reads : ∀ rest, valueWith convert nested (opener :: rest) =
      (Read.entries closer entry true rest >>= fun found => pure (wrap found.1, found.2)))
    (separated : Separated (Takes entry) entries text) :
    Takes (valueWith convert nested) (wrap entries) (opener :: (text ++ [closer])) := by
  refine ⟨⟨opener, _, rfl, visible, opens⟩, fun rest _ => ?_⟩
  rw [List.cons_append, List.append_assoc, List.singleton_append, reads,
    entries_separated closes separated rest]
  rfl

theorem takes_array {read : Reader Json} {items : List Json} {text : List Char}
    (separated : Separated (Takes read) items text) :
    Takes (valueWith convert (some read)) (.array items) ('[' :: (text ++ [']'])) :=
  takes_bracketed (by simp [Closes]) rfl (by simp [Closes]) (fun _ => rfl) separated

theorem takes_object {read : Reader Json} {members : List (String × Json)} {text : List Char}
    (separated : Separated (Takes (member read)) members text) :
    Takes (valueWith convert (some read)) (.object members) ('\x7b' :: (text ++ ['\x7d'])) :=
  takes_bracketed (by simp [Closes]) rfl (by simp [Closes]) (fun _ => rfl) separated

/-- What every reader for values takes is taken at every depth. -/
theorem takes_of_valueWith {json : Json} {text : List Char}
    (always : ∀ nested, Takes (valueWith convert nested) json text) (depth : Nat) :
    Takes (value convert depth) json text := by
  cases depth with
  | zero => exact always none
  | succ depth => exact always (some (value convert depth))

theorem value_append {space : List Char} (spaces : Spaces space) (depth : Nat)
    (text : List Char) : value convert depth (space ++ text) = value convert depth text := by
  cases depth <;> rw [value, valueWith, skipSpace_append spaces] <;> rfl

theorem takes_member {depth : Nat} {entry : String × Json} {text : List Char}
    (spelled : MemberSpelling (Takes (value convert depth)) entry text) :
    Takes (member (value convert depth)) entry text := by
  obtain @⟨name, value, nameText, before, after, text, named, spacesBefore, spacesAfter, taken⟩ :=
    spelled
  have starts : ∃ tail, nameText = doubleQuote :: tail := by
    obtain ⟨chars⟩ := named
    exact ⟨_, rfl⟩
  obtain ⟨tail, quoted⟩ := starts
  refine ⟨⟨doubleQuote, _, by rw [quoted, List.cons_append], rfl, by simp [Closes, doubleQuote]⟩,
    fun rest delimits => ?_⟩
  have colonRead : colon (before ++ ':' :: (after ++ (text ++ rest))) =
      .ok (after ++ (text ++ rest)) := by
    rw [colon, skipSpace_append spacesBefore, skipSpace_cons rfl]
    rfl
  rw [List.append_assoc, List.append_assoc, List.cons_append, List.append_assoc, member,
    name_append named]
  simp only [bind, Except.bind, colonRead, value_append spacesAfter, taken.takes rest delimits]

variable {admits : Numeral → Prop}

-- The induction is on the spelling.  The depth that is left is one less inside brackets.
mutual

/-- Every spelling of a value is taken by the reader for its depth. -/
theorem takes_value (finite : ∀ numeral, admits numeral → (convert numeral).isFinite = true)
    {json : Json} {text : List Char} {depth : Nat} (shallow : json.depth ≤ depth) :
    Spelling convert admits json text → Takes (value convert depth) json text
  | .null => takes_of_valueWith (fun _ =>
      ⟨⟨'n', _, rfl, rfl, by simp [Closes]⟩, fun _ _ => rfl⟩) depth
  | .yes => takes_of_valueWith (fun _ =>
      ⟨⟨'t', _, rfl, rfl, by simp [Closes]⟩, fun _ _ => rfl⟩) depth
  | .no => takes_of_valueWith (fun _ =>
      ⟨⟨'f', _, rfl, rfl, by simp [Closes]⟩, fun _ _ => rfl⟩) depth
  | .integer written whole => takes_of_valueWith (fun _ =>
      takes_number written fun _ => number_integer written whole) depth
  | .float written notWhole admitted => takes_of_valueWith (fun _ =>
      takes_number written fun _ => number_float written notWhole (finite _ admitted)) depth
  | .string written => takes_of_valueWith (fun _ => takes_string written) depth
  | .array written => by
      obtain ⟨inner, rfl⟩ := Nat.exists_eq_add_one_of_ne_zero (Nat.ne_zero_of_lt shallow)
      have shallowItems := depthItems_le_iff.mp (Nat.le_of_succ_le_succ shallow)
      exact takes_array (takes_items finite shallowItems written)
  | .object written => by
      obtain ⟨inner, rfl⟩ := Nat.exists_eq_add_one_of_ne_zero (Nat.ne_zero_of_lt shallow)
      have shallowMembers := depthMembers_le_iff.mp (Nat.le_of_succ_le_succ shallow)
      exact takes_object (takes_members finite shallowMembers written)

theorem takes_items (finite : ∀ numeral, admits numeral → (convert numeral).isFinite = true)
    {items : List Json} {text : List Char} {depth : Nat}
    (shallow : ∀ item ∈ items, item.depth ≤ depth) :
    Separated (Spelling convert admits) items text →
      Separated (Takes (value convert depth)) items text
  | .empty spaces => .empty spaces
  | .last before spelled after =>
      .last before (takes_value finite (shallow _ List.mem_cons_self) spelled) after
  | .more before spelled after later =>
      .more before (takes_value finite (shallow _ List.mem_cons_self) spelled) after
        (takes_items finite (fun _ membership => shallow _ (List.mem_cons_of_mem _ membership))
          later)

theorem takes_members (finite : ∀ numeral, admits numeral → (convert numeral).isFinite = true)
    {members : List (String × Json)} {text : List Char} {depth : Nat}
    (shallow : ∀ member ∈ members, member.2.depth ≤ depth) :
    Separated (MemberSpelling (Spelling convert admits)) members text →
      Separated (Takes (member (value convert depth))) members text
  | .empty spaces => .empty spaces
  | .last before (.pair named spaceBefore spaceAfter spelled) after =>
      .last before (takes_member (.pair named spaceBefore spaceAfter
        (takes_value finite (shallow _ List.mem_cons_self) spelled))) after
  | .more before (.pair named spaceBefore spaceAfter spelled) after later =>
      .more before (takes_member (.pair named spaceBefore spaceAfter
        (takes_value finite (shallow _ List.mem_cons_self) spelled))) after
        (takes_members finite (fun _ membership => shallow _ (List.mem_cons_of_mem _ membership))
          later)

end

end Values

end Read

end Template.Json
