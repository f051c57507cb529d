import Template.Proofs.Fragment.Splitting
import Template.Proofs.Fragment.Unfinished
import Template.Proofs.Literal.Numerals
import Template.Proofs.Literal.Strings

/-!
# Literals are tokens

Two readers look at strings: the one of literals takes an escape as a whole, however long it is,
and the one of fragments passes over a single character behind a backslash.  They agree where a
string ends, because no character of an escape behind its first can be a mark, a backslash or the
beginning of a substitution (`exists_of_escape?`).

So a source that is recognised as a literal is one token for the reader of fragments: it is
balanced, nothing separates it, and a string is not over before its last character.
-/

namespace Template

open Template.Text

/-! ## What is recognised -/

namespace Literal

variable {mark : Char} {text rest value : List Char} {literal : Literal}

/-- The shapes that are recognised. -/
inductive Recognised : List Char → Literal → Prop where
  | true : Recognised "true".toList (.boolean true)
  | false : Recognised "false".toList (.boolean false)
  | null : Recognised "null".toList .null
  | text {mark : Char} {rest value : List Char}
      (quotes : mark ∈ [doubleQuote, singleQuote, backtick])
      (read : stringFrom mark 0 rest = some value) :
      Recognised (mark :: rest) (.text (String.ofList value))
  | number {text : List Char} {number : Double} (read : number? text = some number) :
      Recognised text (.number number)

theorem recognised_of_ofChars? (read : ofChars? text = some literal) :
    Recognised text literal := by
  unfold ofChars? at read
  split at read
  next same =>
    obtain rfl := Option.some.inj read
    rw [eq_of_beq same]
    exact .true
  split at read
  next same =>
    obtain rfl := Option.some.inj read
    rw [eq_of_beq same]
    exact .false
  split at read
  next same =>
    obtain rfl := Option.some.inj read
    rw [eq_of_beq same]
    exact .null
  split at read
  next => contradiction
  next first rest _ _ _ =>
    split at read
    next isMark =>
      obtain ⟨value, valueRead, rfl⟩ := Option.map_eq_some_iff.mp read
      exact .text (by simpa [or_assoc] using isMark) valueRead
    next =>
      obtain ⟨number, numberRead, rfl⟩ := Option.map_eq_some_iff.mp read
      exact .number numberRead

/-! ## Strings -/

/-- What stands between the marks of a string, also of a template string without substitutions. -/
inductive StringText (mark : Char) : List Char → Prop where
  | nil : StringText mark []
  | escaped {char : Char} {rest : List Char} (others : StringText mark rest) :
      StringText mark (backslash :: char :: rest)
  | plain {char : Char} {rest : List Char} (noBackslash : char ≠ backslash) (noMark : char ≠ mark)
      (noSubstitution : ¬ (mark = backtick ∧ char = '$' ∧ rest.head? = some '{'))
      (others : StringText mark rest) : StringText mark (char :: rest)

/-- Whether a character may be a part of an escape behind its first character. -/
def isCode (char : Char) : Bool :=
  char.isAlphanum || ['+', '{', '}'].contains char

theorem isAlphanum_of_natural? {base number : Nat} (small : base ≤ 16)
    (read : natural? base text = some number) : ∀ char ∈ text, char.isAlphanum = true :=
  fun _ membership => (digits_of_natural? small false read).isAlphanum_of_mem small membership

theorem isCode_of_codePoint? {char : Char} (read : codePoint? text = some char) :
    ∀ digit ∈ text, isCode digit = true := by
  have digits {number : Nat} {text : List Char} (natural : natural? 16 text = some number) :
      ∀ digit ∈ text, isCode digit = true := by
    intro digit membership
    rw [isCode, isAlphanum_of_natural? (by decide) natural digit membership, Bool.true_or]
  unfold codePoint? at read
  split at read
  next number unsigned =>
    unfold unsigned? at unsigned
    split at unsigned
    next => exact List.forall_mem_cons.mpr ⟨by decide, digits unsigned⟩
    next => exact digits unsigned
  next => contradiction

/-- An escape is a character and the characters of a code. -/
theorem exists_of_escape? {length : Nat} (read : escape? text = some (value, length)) :
    ∃ char code rest, text = char :: (code ++ rest) ∧ length = code.length + 1 ∧
      ∀ char ∈ code, isCode char = true := by
  unfold escape? at read
  split at read
  next => contradiction
  next first second rest =>
    obtain ⟨char, codePoint, pair⟩ := Option.map_eq_some_iff.mp read
    obtain ⟨-, rfl⟩ := Prod.mk.inj pair
    exact ⟨'x', [first, second], rest, rfl, rfl, isCode_of_codePoint? codePoint⟩
  next => contradiction
  next rest =>
    simp only at read
    split at read
    next closed =>
      obtain ⟨after, restEq⟩ := eq_takeWhile_append closed
      generalize rest.takeWhile (· != '}') = digits at read restEq
      subst restEq
      obtain ⟨char, codePoint, pair⟩ := Option.map_eq_some_iff.mp read
      obtain ⟨-, rfl⟩ := Prod.mk.inj pair
      refine ⟨'u', '{' :: (digits ++ ['}']), after, by simp, by simp, ?_⟩
      have codes := isCode_of_codePoint? codePoint
      simpa [isCode, or_imp, forall_and] using codes
    next => contradiction
  next first second third fourth rest noBrace =>
    obtain ⟨char, codePoint, pair⟩ := Option.map_eq_some_iff.mp read
    obtain ⟨-, rfl⟩ := Prod.mk.inj pair
    exact ⟨'u', [first, second, third, fourth], rest, rfl, rfl, isCode_of_codePoint? codePoint⟩
  next => contradiction
  next rest =>
    obtain ⟨-, rfl⟩ := Prod.mk.inj (Option.some.inj read)
    exact ⟨'\n', [], rest, rfl, rfl, by simp⟩
  next char rest _ _ _ _ _ _ =>
    obtain ⟨-, rfl⟩ := Prod.mk.inj (Option.some.inj read)
    exact ⟨char, [], rest, rfl, rfl, by simp⟩

/-- The characters of a code neither end a string nor protect anything. -/
theorem StringText.code_append (quotes : mark ∈ [doubleQuote, singleQuote, backtick])
    {code : List Char} (codes : ∀ char ∈ code, isCode char = true) (others : StringText mark rest) :
    StringText mark (code ++ rest) := by
  induction code with
  | nil => exact others
  | cons char code inductionHypothesis =>
    rw [List.forall_mem_cons] at codes
    have different (other : Char) (noCode : isCode other = false) : char ≠ other := by
      rintro rfl
      rw [codes.1] at noCode
      contradiction
    have noMark : isCode mark = false := by
      simp only [List.mem_cons, List.not_mem_nil, or_false] at quotes
      rcases quotes with rfl | rfl | rfl <;> rfl
    have noDollar := different '$' rfl
    exact .plain (different backslash rfl) (different mark noMark) (fun found => noDollar found.2.1)
      (inductionHypothesis codes.2)

/-- A string that is read goes up to the last character. -/
theorem stringText_of_stringFrom (quotes : mark ∈ [doubleQuote, singleQuote, backtick])
    {skipped : Nat} (read : stringFrom mark skipped text = some value) :
    ∃ inside, text.drop skipped = inside ++ [mark] ∧ StringText mark inside := by
  induction text generalizing skipped value with
  | nil => cases skipped <;> contradiction
  | cons char rest inductionHypothesis =>
    cases skipped with
    | succ skipped => exact inductionHypothesis read
    | zero =>
      rw [stringFrom] at read
      rw [List.drop_zero]
      split at read
      next isBackslash =>
        obtain rfl := eq_of_beq isBackslash
        split at read
        next => contradiction
        next chars length escaped =>
          obtain ⟨others, othersRead, rfl⟩ := Option.map_eq_some_iff.mp read
          obtain ⟨char, code, after, rfl, rfl, codes⟩ := exists_of_escape? escaped
          obtain ⟨inside, afterEq, stringText⟩ := inductionHypothesis othersRead
          rw [List.drop_succ_cons, List.drop_left] at afterEq
          subst afterEq
          exact ⟨backslash :: char :: (code ++ inside), by simp,
            .escaped (stringText.code_append quotes codes)⟩
      next noBackslash =>
        split at read
        next => contradiction
        next noSubstitution =>
          split at read
          next closes =>
            obtain rfl := eq_of_beq closes
            split at read
            next ends =>
              rw [List.isEmpty_iff.mp ends]
              exact ⟨[], rfl, .nil⟩
            next => contradiction
          next noMark =>
            obtain ⟨others, othersRead, rfl⟩ := Option.map_eq_some_iff.mp read
            obtain ⟨inside, restEq, stringText⟩ := inductionHypothesis othersRead
            rw [List.drop_zero] at restEq
            subst restEq
            refine ⟨char :: inside, rfl, ?_⟩
            refine .plain (by simpa using noBackslash) (by simpa using noMark) ?_ stringText
            rintro ⟨rfl, rfl, brace⟩
            simp [brace] at noSubstitution

/-! ## Numbers and words -/

/-- Whether a character may occur in a keyword or a number, with blanks behind the sign. -/
def isWord (char : Char) : Bool :=
  char.isAlphanum || ['.', '+', '-'].contains char || Text.isBlank char

theorem isWord_of_isAlphanum {char : Char} (alphanumeric : char.isAlphanum = true) :
    isWord char = true := by
  rw [isWord, alphanumeric, Bool.true_or, Bool.true_or]

theorem isWord_of_natural? {base number : Nat} (small : base ≤ 16)
    (read : natural? base text = some number) : ∀ char ∈ text, isWord char = true :=
  fun char membership => isWord_of_isAlphanum (isAlphanum_of_natural? small read char membership)

theorem isWord_of_signed? {base : Nat} {number : Int} (small : base ≤ 16)
    (read : signed? base text = some number) : ∀ char ∈ text, isWord char = true := by
  unfold signed? at read
  split at read
  next =>
    obtain ⟨value, natural, -⟩ := Option.map_eq_some_iff.mp read
    exact List.forall_mem_cons.mpr ⟨by decide, isWord_of_natural? small natural⟩
  next =>
    obtain ⟨value, natural, -⟩ := Option.map_eq_some_iff.mp read
    exact List.forall_mem_cons.mpr ⟨by decide, isWord_of_natural? small natural⟩
  next =>
    obtain ⟨value, natural, -⟩ := Option.map_eq_some_iff.mp read
    exact isWord_of_natural? small natural

theorem isWord_of_exponent? {power : Int} (read : Decimal.exponent? text = some power) :
    ∀ char ∈ text, isWord char = true := by
  unfold Decimal.exponent? at read
  split at read
  next => simp
  next mark rest =>
    split at read
    next marked =>
      have isMark : isWord mark = true := by
        obtain rfl | rfl : mark = 'e' ∨ mark = 'E' := by simpa using marked
        · rfl
        · rfl
      exact List.forall_mem_cons.mpr ⟨isMark, isWord_of_signed? (by decide) read⟩
    next => contradiction

theorem isWord_of_decimal {decimal : Decimal} (read : Decimal.read? text = some decimal) :
    ∀ char ∈ text, isWord char = true := by
  obtain ⟨whole, fraction, exponent, coefficient, power, layout, digits, exponentRead, -⟩ :=
    exists_parts_of_read? read
  have digitWords := isWord_of_natural? (by decide) digits
  have exponentWords := isWord_of_exponent? exponentRead
  rw [List.forall_mem_append] at digitWords
  rcases layout with ⟨rfl, -⟩ | rfl
  · exact List.forall_mem_append.mpr ⟨digitWords.1, exponentWords⟩
  · rw [List.forall_mem_append, List.forall_mem_cons, List.forall_mem_append]
    exact ⟨digitWords.1, by decide, digitWords.2, exponentWords⟩

theorem isWord_of_unsignedNumber? {number : Double} (read : unsignedNumber? text = some number) :
    ∀ char ∈ text, isWord char = true := by
  have hexadecimal {digits : List Char}
      (integer : ((signed? 16 digits).bind int64?).map Double.ofInt = some number) :
      ∀ char ∈ digits, isWord char = true := by
    obtain ⟨value, fits, -⟩ := Option.map_eq_some_iff.mp integer
    obtain ⟨written, signedRead, -⟩ := Option.bind_eq_some_iff.mp fits
    exact isWord_of_signed? (by decide) signedRead
  unfold unsignedNumber? at read
  split at read
  next =>
    rw [List.forall_mem_cons, List.forall_mem_cons]
    exact ⟨by decide, by decide, hexadecimal read⟩
  next =>
    rw [List.forall_mem_cons, List.forall_mem_cons]
    exact ⟨by decide, by decide, hexadecimal read⟩
  next =>
    split at read
    next =>
      obtain ⟨decimal, decimalRead, -⟩ := Option.map_eq_some_iff.mp read
      exact isWord_of_decimal decimalRead
    next => contradiction
  next => contradiction

theorem isWord_of_number? {number : Double} (read : number? text = some number) :
    ∀ char ∈ text, isWord char = true := by
  unfold number? at read
  split at read
  next rest =>
    obtain ⟨magnitude, magnitudeRead, -⟩ := Option.map_eq_some_iff.mp read
    refine List.forall_mem_cons.mpr ⟨by decide, ?_⟩
    rw [← List.takeWhile_append_dropWhile (p := Text.isBlank) (l := rest), List.forall_mem_append]
    refine ⟨?_, isWord_of_unsignedNumber? magnitudeRead⟩
    intro char membership
    rw [isWord, List.mem_takeWhile_imp membership, Bool.or_true]
  next => exact isWord_of_unsignedNumber? read

end Literal

/-! ## Reading strings as fragments -/

namespace Fragment

open Literal (StringText)

variable {mark separator : Char} {text whole : List Char} {stack : List Frame}

/-- What a mark leads into. -/
def stringMode (mark : Char) : Mode :=
  if mark = backtick then .template else .quoted mark

namespace State

variable {char : Char} {next : Option Char}

theorem read_opening (quotes : mark ∈ [doubleQuote, singleQuote, backtick]) :
    read { stack } mark next = .hidden { mode := stringMode mark, stack } := by
  simp only [List.mem_cons, List.not_mem_nil, or_false] at quotes
  rcases quotes with rfl | rfl | rfl <;> rfl

theorem read_closing (quotes : mark ∈ [doubleQuote, singleQuote, backtick]) :
    read { mode := stringMode mark, stack } mark next = .hidden { stack } := by
  simp only [List.mem_cons, List.not_mem_nil, or_false] at quotes
  rcases quotes with rfl | rfl | rfl <;> rfl

theorem read_protecting :
    read { mode := stringMode mark, stack } backslash next =
      .hidden { mode := stringMode mark, stack, held := true } := by
  unfold stringMode
  split <;> rfl

theorem read_inside (noBackslash : char ≠ backslash) (noMark : char ≠ mark)
    (noSubstitution : ¬ (mark = backtick ∧ char = '$' ∧ next = some '{')) :
    read { mode := stringMode mark, stack } char next =
      .hidden { mode := stringMode mark, stack } := by
  unfold stringMode
  split
  next template =>
    subst template
    have noBrace : ¬ (char = '$' ∧ next = some '{') := fun found => noSubstitution ⟨rfl, found⟩
    simp [read, readTemplate, noBackslash, noMark, noBrace]
  next => simp [read, readQuoted, noBackslash, noMark]

/-- A string that breaks off leaves the reading within it. -/
theorem run_inside (inside : StringText mark whole) (beginning : text <+: whole)
    (noBrace : next ≠ some '{') :
    ∃ held, run next { mode := stringMode mark, stack } text =
      some { mode := stringMode mark, stack, held } := by
  induction inside generalizing text with
  | nil =>
    rw [List.prefix_nil.mp beginning]
    exact ⟨false, rfl⟩
  | escaped others inductionHypothesis =>
    rcases List.prefix_cons_iff.mp beginning with rfl | ⟨text, rfl, escape⟩
    · exact ⟨false, rfl⟩
    rcases List.prefix_cons_iff.mp escape with rfl | ⟨text, rfl, behind⟩
    · refine ⟨true, ?_⟩
      rw [run_singleton, read_protecting]
      rfl
    · obtain ⟨held, success⟩ := inductionHypothesis behind
      refine ⟨held, ?_⟩
      rw [run, read_protecting]
      exact success
  | @plain char rest noBackslash noMark noSubstitution others inductionHypothesis =>
    rcases List.prefix_cons_iff.mp beginning with rfl | ⟨text, rfl, behind⟩
    · exact ⟨false, rfl⟩
    obtain ⟨held, success⟩ := inductionHypothesis behind
    refine ⟨held, ?_⟩
    have lookahead : ¬ (mark = backtick ∧ char = '$' ∧ text.head?.or next = some '{') := by
      cases text with
      | nil => exact fun found => noBrace found.2.2
      | cons second text =>
        obtain ⟨more, rfl⟩ := behind
        exact noSubstitution
    rw [run, read_inside noBackslash noMark lookahead]
    exact success

end State

/-- A text that leads from a state to code without open brackets and is not cut on the way. -/
structure UndividedFrom (separator : Char) (state : State) (text : List Char) : Prop where
  balanced : state.run none text = some {}
  whole : partsFrom separator state text = some [text]

theorem UndividedFrom.hidden {state after : State} {char : Char}
    (reading : state.read char text.head? = .hidden after)
    (undivided : UndividedFrom separator after text) :
    UndividedFrom separator state (char :: text) where
  balanced := by
    rw [State.run, Option.or_none, reading]
    exact undivided.balanced
  whole := by
    rw [partsFrom, reading]
    simp only [undivided.whole]
    rfl

/-- A string is one token, whatever the separator is. -/
theorem undividedFrom_string (quotes : mark ∈ [doubleQuote, singleQuote, backtick])
    (inside : StringText mark text) :
    UndividedFrom separator { mode := stringMode mark } (text ++ [mark]) := by
  induction inside with
  | nil => exact .hidden (State.read_closing quotes) ⟨rfl, rfl⟩
  | escaped others inductionHypothesis =>
    exact .hidden State.read_protecting (.hidden rfl inductionHypothesis)
  | @plain char rest noBackslash noMark noSubstitution others inductionHypothesis =>
    refine .hidden (State.read_inside noBackslash noMark ?_) inductionHypothesis
    cases rest with
    | nil =>
      rintro ⟨rfl, -, brace⟩
      contradiction
    | cons => exact noSubstitution

theorem undivided_string (quotes : mark ∈ [doubleQuote, singleQuote, backtick])
    (inside : StringText mark text) : Undivided separator (mark :: (text ++ [mark])) := by
  have whole : UndividedFrom separator {} (mark :: (text ++ [mark])) :=
    .hidden (State.read_opening quotes) (undividedFrom_string quotes inside)
  exact ⟨whole.balanced, whole.whole⟩

/-- Everything is hidden within a string. -/
theorem untilClose_inside {state : State} (inString : state.mode = stringMode mark) (char : Char) :
    untilClose state [char] = none := by
  obtain ⟨mode, stack, held⟩ := state
  subst inString
  unfold stringMode
  cases held with
  | true => rfl
  | false => split <;> rfl

/-- A string is not over before its last character: a parenthesis behind its beginning closes
nothing. -/
theorem matchingClose?_inside (quotes : mark ∈ [doubleQuote, singleQuote, backtick])
    (inside : StringText mark whole) (beginning : text <+: whole) :
    matchingClose? (String.ofList ('(' :: ((mark :: text) ++ [')']))) = none := by
  have parenthesis : some ')' ≠ some '{' := by decide
  obtain ⟨held, success⟩ := State.run_inside inside beginning parenthesis
  have opened : State.run [')'].head? {} (mark :: text) =
      some { mode := stringMode mark, held } := by
    rw [State.run, State.read_opening quotes]
    exact success
  have nothing : untilClose (State.above [.bracket ')'] {}) ((mark :: text) ++ [')']) = none := by
    rw [untilClose_append (List.cons_ne_nil _ _) opened, untilClose_inside rfl, Option.map_none]
  have pair : closer? '(' = some ')' := rfl
  rw [matchingClose?, String.toList_ofList, spanClose?, pair, Option.isSome_some, if_pos rfl,
    untilClose_opener pair, nothing]
  rfl

/-- The separators at which a literal is never cut. -/
def separators : List Char :=
  [',', '(', ')', '[', ']', '{', '}']

theorem undivided_word (words : ∀ char ∈ text, Literal.isWord char = true)
    (separates : separator ∈ separators) : Undivided separator text := by
  have different (other : Char) (noWord : Literal.isWord other = false) : other ∉ text := by
    intro membership
    rw [words other membership] at noWord
    contradiction
  have table : (separators ++ specials).all (fun other => !Literal.isWord other) = true := by
    decide
  have noWords (other : Char) (listed : other ∈ separators ++ specials) :
      Literal.isWord other = false := by
    simpa using List.all_eq_true.mp table other listed
  have plain : ∀ char ∈ text, char ∉ specials := fun char membership special =>
    different char (noWords char (List.mem_append_right _ special)) membership
  have undivided := (Undivided.nil separator).plain_append plain
    (different separator (noWords separator (List.mem_append_left _ separates)))
  rwa [List.append_nil] at undivided

/-- A literal is one token. -/
theorem undivided_of_recognised {literal : Literal} (recognised : Literal.Recognised text literal)
    (separates : separator ∈ separators) : Undivided separator text := by
  cases recognised with
  | true | false | null => exact undivided_word (List.all_eq_true.mp (by decide)) separates
  | text quotes read =>
    obtain ⟨inside, rfl, stringText⟩ := Literal.stringText_of_stringFrom quotes read
    exact undivided_string quotes stringText
  | number read => exact undivided_word (Literal.isWord_of_number? read) separates

theorem matchingClose?_of_recognised {value : String}
    (recognised : Literal.Recognised whole (.text value)) (beginning : text <+: whole)
    (nonempty : text ≠ []) (shorter : text ≠ whole) :
    matchingClose? (String.ofList ('(' :: (text ++ [')']))) = none := by
  cases recognised with
  | text quotes read =>
    obtain ⟨inside, rfl, stringText⟩ := Literal.stringText_of_stringFrom quotes read
    obtain ⟨front, rfl, within⟩ :=
      ((prefix_delimited beginning).resolve_left nonempty).resolve_left shorter
    exact matchingClose?_inside quotes stringText within

/-- A source that is recognised as a literal is one token without the blanks around it: it fills
the parentheses put around it, and neither a comma nor a bracket cuts it.  A string is over at its
last character and not earlier, so a beginning of it leaves the parentheses open. -/
theorem token_of_read? (source : String) (literal : Literal)
    (read : Literal.read? source = some literal) :
    matchingClose? ("(" ++ trim source ++ ")") = some (byteSize (trim source).toList + 1) ∧
    (∀ separator ∈ separators, topLevelParts? separator (trim source) = some [trim source]) ∧
    ((∃ value, literal = .text value) → ∀ before after : String, trim source = before ++ after →
      before ≠ "" → after ≠ "" → matchingClose? ("(" ++ before ++ ")") = none) := by
  have recognised := Literal.recognised_of_ofChars? read
  have trimmed : (trim source).toList = strip source.toList := String.toList_ofList
  rw [← trimmed] at recognised
  have token (separator : Char) (separates : separator ∈ separators) :
      Closed (trim source) ∧ topLevelParts? separator (trim source) = some [trim source] :=
    undivided_iff.mp (undivided_of_recognised recognised separates)
  refine ⟨?_, fun separator separates => (token separator separates).2, ?_⟩
  · rw [Nat.add_comm]
    exact (token ',' (by decide)).1
  · rintro ⟨value, rfl⟩ before after split beforeNonempty afterNonempty
    rw [split, String.toList_append] at recognised
    have shorter : before.toList ≠ before.toList ++ after.toList := by simpa using afterNonempty
    rw [parentheses_eq]
    exact matchingClose?_of_recognised recognised (List.prefix_append _ _)
      (by simpa using beforeNonempty) shorter

/-- A string with brackets and its own mark in three kinds of escapes. -/
def escapedBrackets : String := " '\\u\x7b28\x7d\\'\\x29(' "

theorem token_of_read?_escapedBrackets :
    Literal.read? escapedBrackets = some (.text "(')(") ∧
    matchingClose? ("(" ++ trim escapedBrackets ++ ")") = some 16 ∧
    topLevelParts? ')' (trim escapedBrackets) = some [trim escapedBrackets] ∧
    matchingClose? "('\\u\x7b28\x7d\\')" = none := by
  have read : Literal.read? escapedBrackets = some (.text "(')(") := by decide +kernel
  obtain ⟨closes, whole, unfinished⟩ := token_of_read? escapedBrackets _ read
  refine ⟨read, closes, whole ')' (by decide), ?_⟩
  exact unfinished ⟨_, rfl⟩ "'\\u\x7b28\x7d\\'" "\\x29('" (by decide +kernel) (by decide) (by decide)

end Fragment

end Template
