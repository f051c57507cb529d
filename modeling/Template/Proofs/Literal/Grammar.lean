import Mathlib.Data.List.Induction
import Template.Literal
import Template.Proofs.Double.Nearest

/-!
# The grammar of literals

Which texts are literals of JavaScript in strict mode, and which values they have.  The grammar
follows the rules of the language and is independent of the reader: it knows separators between
digits and the bases two and eight, which the reader does not, and it has no octal escapes and no
leading zeros, which strict mode forbids.

The value of a string is a sequence of UTF-16 code units, because an escape may write half of a
character.  The value of a number is the double nearest to the number that is written.
-/

namespace Template.Literal

open Template.Text
open Double (IsNearest)

/-! ## Digits -/

/-- A digit, with a letter of either case for ten and more. -/
def IsDigit (base : Nat) (char : Char) (digit : Nat) : Prop :=
  digit < base ∧ (char = Nat.digitChar digit ∨ char = (Nat.digitChar digit).toUpper)

/-- Digits in a row with their count and the number that they write.  Where separators are
allowed there may be one between two digits. -/
inductive Digits (separators : Bool) (base : Nat) : List Char → Nat → Nat → Prop where
  | single {char : Char} {digit : Nat} (first : IsDigit base char digit) :
      Digits separators base [char] 1 digit
  | next {text : List Char} {count value : Nat} {char : Char} {digit : Nat}
      (digits : Digits separators base text count value) (last : IsDigit base char digit) :
      Digits separators base (text ++ [char]) (count + 1) (base * value + digit)
  | separated {text : List Char} {count value : Nat} {char : Char} {digit : Nat}
      (allowed : separators = true) (digits : Digits separators base text count value)
      (last : IsDigit base char digit) :
      Digits separators base (text ++ ['_', char]) (count + 1) (base * value + digit)

/-! ## Strings -/

/-- The code units of a code point. -/
def codeUnits (code : Nat) : List Nat :=
  if code < 0x10000 then [code]
  else [0xD800 + (code - 0x10000) / 0x400, 0xDC00 + (code - 0x10000) % 0x400]

/-- The code units of a text. -/
def textUnits (text : List Char) : List Nat :=
  text.flatMap fun char => codeUnits char.toNat

/-- The characters that end a line. -/
def lineTerminators : List Char := ['\n', '\r', '\u2028', '\u2029']

/-- The characters with a meaning of their own after a backslash. -/
def singleEscapes : List (Char × Char) :=
  [(singleQuote, singleQuote), (doubleQuote, doubleQuote), (backslash, backslash), ('b', '\x08'),
    ('f', '\x0c'), ('n', '\n'), ('r', '\r'), ('t', '\t'), ('v', '\x0b')]

/-- A single character after a backslash, with the character that it stands for. -/
inductive CharacterEscape : Char → Char → Prop where
  | single {char value : Char} (listed : (char, value) ∈ singleEscapes) :
      CharacterEscape char value
  | itself {char : Char} (unlisted : char ∉ singleEscapes.map Prod.fst)
      (noDigit : char.isDigit = false) (noCode : char ≠ 'x' ∧ char ≠ 'u')
      (sameLine : char ∉ lineTerminators) : CharacterEscape char char

/-- What may follow a backslash, with the character after it and the code units that it stands
for.  An escaped end of a line stands for nothing. -/
inductive EscapeSpelling : List Char → Option Char → List Nat → Prop where
  | continuation {char : Char} {next : Option Char} (ends : char ∈ ['\n', '\u2028', '\u2029']) :
      EscapeSpelling [char] next []
  | carriage {next : Option Char} (alone : next ≠ some '\n') : EscapeSpelling ['\r'] next []
  | carriageFeed {next : Option Char} : EscapeSpelling ['\r', '\n'] next []
  | character {char value : Char} {next : Option Char} (escape : CharacterEscape char value) :
      EscapeSpelling [char] next (codeUnits value.toNat)
  | zero {next : Option Char} (noDigit : ∀ char, next = some char → char.isDigit = false) :
      EscapeSpelling ['0'] next [0]
  | hexadecimal {digits : List Char} {code : Nat} {next : Option Char}
      (written : Digits false 16 digits 2 code) : EscapeSpelling ('x' :: digits) next [code]
  | unit {digits : List Char} {code : Nat} {next : Option Char}
      (written : Digits false 16 digits 4 code) : EscapeSpelling ('u' :: digits) next [code]
  | codePoint {digits : List Char} {count code : Nat} {next : Option Char}
      (written : Digits false 16 digits count code) (inRange : code ≤ 0x10FFFF) :
      EscapeSpelling ('u' :: '{' :: (digits ++ ['}'])) next (codeUnits code)

/-- Whether a character stands for itself between two marks, given the one after it.  Lines end
only in a template, where a carriage return does not stand for itself. -/
def IsRaw (mark char : Char) (next : Option Char) : Prop :=
  char ≠ mark ∧ char ≠ backslash ∧ char ≠ '\r' ∧
    if mark = backtick then ¬ (char = '$' ∧ next = some '{') else char ≠ '\n'

/-- A text up to the closing mark, with the code units of its value. -/
inductive Spells (mark : Char) : List Char → List Nat → Prop where
  | finish : Spells mark [mark] []
  | raw {char : Char} {rest : List Char} {units : List Nat} (isRaw : IsRaw mark char rest.head?)
      (others : Spells mark rest units) :
      Spells mark (char :: rest) (codeUnits char.toNat ++ units)
  | carriage {rest : List Char} {units : List Nat} (template : mark = backtick)
      (alone : rest.head? ≠ some '\n') (others : Spells mark rest units) :
      Spells mark ('\r' :: rest) (codeUnits '\n'.toNat ++ units)
  | carriageFeed {rest : List Char} {units : List Nat} (template : mark = backtick)
      (others : Spells mark rest units) :
      Spells mark ('\r' :: '\n' :: rest) (codeUnits '\n'.toNat ++ units)
  | escape {spelling rest : List Char} {units others : List Nat}
      (escaped : EscapeSpelling spelling rest.head? units) (spelled : Spells mark rest others) :
      Spells mark (backslash :: (spelling ++ rest)) (units ++ others)

/-! ## Numbers -/

/-- The digits before a point, without a zero in front of others. -/
inductive WholePart : List Char → Nat → Prop where
  | zero : WholePart ['0'] 0
  | digits {text : List Char} {count value : Nat} (written : Digits true 10 text count value)
      (noZero : text.head? ≠ some '0') : WholePart text value

/-- The digits after a point, which may be missing. -/
inductive FractionPart : List Char → ℚ → Prop where
  | missing : FractionPart [] 0
  | digits {text : List Char} {count value : Nat} (written : Digits true 10 text count value) :
      FractionPart text (value / 10 ^ count)

/-- The power of ten at the end of a number, which may be missing. -/
inductive ExponentPart : List Char → Int → Prop where
  | missing : ExponentPart [] 0
  | positive {mark : Char} {sign digits : List Char} {count value : Nat}
      (marked : mark ∈ ['e', 'E']) (signed : sign ∈ [[], ['+']])
      (written : Digits true 10 digits count value) :
      ExponentPart (mark :: (sign ++ digits)) value
  | negative {mark : Char} {digits : List Char} {count value : Nat} (marked : mark ∈ ['e', 'E'])
      (written : Digits true 10 digits count value) :
      ExponentPart (mark :: '-' :: digits) (-value)

/-- The letters after a zero that announce another base. -/
def baseMarks : List (Char × Nat) :=
  [('b', 2), ('B', 2), ('o', 8), ('O', 8), ('x', 16), ('X', 16)]

/-- A number without a sign, with its exact value. -/
inductive Numeral : List Char → ℚ → Prop where
  | integer {whole exponent : List Char} {value : Nat} {power : Int}
      (wholePart : WholePart whole value) (exponentPart : ExponentPart exponent power) :
      Numeral (whole ++ exponent) (value * 10 ^ power)
  | pointed {whole fraction exponent : List Char} {value : Nat} {places : ℚ} {power : Int}
      (wholePart : WholePart whole value) (fractionPart : FractionPart fraction places)
      (exponentPart : ExponentPart exponent power) :
      Numeral (whole ++ '.' :: (fraction ++ exponent)) ((value + places) * 10 ^ power)
  | fraction {fraction exponent : List Char} {count value : Nat} {power : Int}
      (written : Digits true 10 fraction count value) (exponentPart : ExponentPart exponent power) :
      Numeral ('.' :: (fraction ++ exponent)) (value / 10 ^ count * 10 ^ power)
  | based {mark : Char} {base : Nat} {digits : List Char} {count value : Nat}
      (marked : (mark, base) ∈ baseMarks) (written : Digits true base digits count value) :
      Numeral ('0' :: mark :: digits) value

/-! ## Literals -/

/-- The code points of white space and of the ends of lines. -/
def spaces : List Nat :=
  [0x09, 0x0A, 0x0B, 0x0C, 0x0D, 0x20, 0xA0, 0x1680, 0x2000, 0x2001, 0x2002, 0x2003, 0x2004, 0x2005,
    0x2006, 0x2007, 0x2008, 0x2009, 0x200A, 0x2028, 0x2029, 0x202F, 0x205F, 0x3000, 0xFEFF]

/-- The texts of literals and of negated numbers, with their values. -/
inductive IsLiteral : List Char → Literal → Prop where
  | true : IsLiteral "true".toList (.boolean true)
  | false : IsLiteral "false".toList (.boolean false)
  | null : IsLiteral "null".toList .null
  | text {mark : Char} {rest : List Char} {value : String}
      (quotes : mark ∈ [doubleQuote, singleQuote, backtick])
      (spelled : Spells mark rest (textUnits value.toList)) : IsLiteral (mark :: rest) (.text value)
  | number {text : List Char} {value : ℚ} {number : Double} (numeral : Numeral text value)
      (positive : number.negative = false) (nearest : IsNearest number.magnitude value) :
      IsLiteral text (.number number)
  | negated {between text : List Char} {value : ℚ} {number : Double}
      (spaced : ∀ char ∈ between, char.toNat ∈ spaces) (numeral : Numeral text value)
      (negative : number.negative = true) (nearest : IsNearest number.magnitude value) :
      IsLiteral ('-' :: (between ++ text)) (.number number)

/-! ## Properties of digits -/

section

variable {base count value digit : Nat} {char : Char} {text : List Char} {separators : Bool}

/-- What holds of the digits in both cases holds of every character that is one. -/
theorem IsDigit.of_table {property : Char → Bool}
    (table : ∀ digit < base, property (Nat.digitChar digit) = true ∧
      property (Nat.digitChar digit).toUpper = true)
    (isDigit : IsDigit base char digit) : property char = true := by
  obtain ⟨lower, upper⟩ := table digit isDigit.1
  rcases isDigit.2 with rfl | rfl
  · exact lower
  · exact upper

theorem IsDigit.isDigit (isDigit : IsDigit 10 char digit) : char.isDigit = true :=
  isDigit.of_table (by decide)

theorem IsDigit.isAlphanum (isDigit : IsDigit base char digit) (small : base ≤ 16) :
    char.isAlphanum = true := by
  have table : ∀ digit < 16, (Nat.digitChar digit).isAlphanum = true ∧
      (Nat.digitChar digit).toUpper.isAlphanum = true := by decide
  exact isDigit.of_table fun digit below => table digit (below.trans_le small)

theorem Digits.exists_head (digits : Digits separators base text count value) :
    ∃ first rest digit, text = first :: rest ∧ IsDigit base first digit := by
  induction digits with
  | single first => exact ⟨_, [], _, rfl, first⟩
  | next _ _ inductionHypothesis =>
    obtain ⟨first, rest, digit, rfl, isDigit⟩ := inductionHypothesis
    exact ⟨first, _, digit, List.cons_append, isDigit⟩
  | separated _ _ _ inductionHypothesis =>
    obtain ⟨first, rest, digit, rfl, isDigit⟩ := inductionHypothesis
    exact ⟨first, _, digit, List.cons_append, isDigit⟩

theorem Digits.ne_nil (digits : Digits separators base text count value) : text ≠ [] := by
  obtain ⟨first, rest, _, rfl, _⟩ := digits.exists_head
  exact List.cons_ne_nil first rest

theorem Digits.head?_ne (digits : Digits separators base text count value) (small : base ≤ 16)
    (noDigit : char.isAlphanum = false) : text.head? ≠ some char := by
  obtain ⟨first, rest, digit, rfl, isDigit⟩ := digits.exists_head
  rintro ⟨⟩
  rw [isDigit.isAlphanum small] at noDigit
  contradiction

theorem Digits.isAlphanum_of_mem (digits : Digits false base text count value) (small : base ≤ 16)
    (membership : char ∈ text) : char.isAlphanum = true := by
  induction digits with
  | single first =>
    obtain rfl := List.mem_singleton.mp membership
    exact first.isAlphanum small
  | next _ last inductionHypothesis =>
    rcases List.mem_append.mp membership with before | isLast
    · exact inductionHypothesis before
    · obtain rfl := List.mem_singleton.mp isLast
      exact last.isAlphanum small
  | separated allowed _ _ => contradiction

/-- The number of digits bounds their number. -/
theorem Digits.value_lt (digits : Digits separators base text count value) :
    value < base ^ count := by
  have step {count value digit : Nat} (before : value < base ^ count) (last : digit < base) :
      base * value + digit < base ^ (count + 1) := by
    calc base * value + digit
      _ < base * (value + 1) := by rw [Nat.mul_succ]; exact Nat.add_lt_add_left last _
      _ ≤ base * base ^ count := Nat.mul_le_mul_left _ before
      _ = base ^ (count + 1) := (Nat.pow_succ').symm
  induction digits with
  | single first => simpa using first.1
  | next _ last inductionHypothesis => exact step inductionHypothesis last.1
  | separated _ _ last inductionHypothesis => exact step inductionHypothesis last.1

/-! ## Digits as they are read -/

theorem hexDigit?_eq_some_iff :
    hexDigit? char = some digit ↔ IsDigit 16 char digit := by
  constructor
  · intro read
    have places : ∀ digit < 10, (Nat.digitChar digit).toNat = digit + 48 := by decide
    have lower : ∀ digit < 16, 10 ≤ digit → (Nat.digitChar digit).toNat = digit + 87 := by decide
    have upper : ∀ digit < 16, 10 ≤ digit → (Nat.digitChar digit).toUpper.toNat = digit + 55 := by
      decide
    simp only [hexDigit?, Bool.and_eq_true, decide_eq_true_eq] at read
    split at read
    next isDigit =>
      have bounds : 48 ≤ char.toNat ∧ char.toNat ≤ 57 := by
        simpa [Char.isDigit, UInt32.le_iff_toNat_le] using isDigit
      obtain rfl := Option.some.inj read
      refine ⟨by omega, .inl (Char.toNat_inj.mp ?_)⟩
      rw [places _ (by omega)]
      omega
    next =>
      split at read
      next bounds =>
        obtain rfl := Option.some.inj read
        refine ⟨by omega, .inl (Char.toNat_inj.mp ?_)⟩
        rw [lower _ (by omega) (by omega)]
        omega
      next =>
        split at read
        next bounds =>
          obtain rfl := Option.some.inj read
          refine ⟨by omega, .inr (Char.toNat_inj.mp ?_)⟩
          rw [upper _ (by omega) (by omega)]
          omega
        next => contradiction
  · rintro ⟨small, rfl | rfl⟩
    · have table : ∀ digit < 16, hexDigit? (Nat.digitChar digit) = some digit := by decide
      exact table digit small
    · have table : ∀ digit < 16, hexDigit? (Nat.digitChar digit).toUpper = some digit := by decide
      exact table digit small

theorem digit?_eq_some_iff (small : base ≤ 16) :
    digit? base char = some digit ↔ IsDigit base char digit := by
  rw [digit?, Option.filter_eq_some_iff, hexDigit?_eq_some_iff, IsDigit, IsDigit]
  simp only [decide_eq_true_eq]
  constructor
  · rintro ⟨⟨-, spelled⟩, below⟩
    exact ⟨below, spelled⟩
  · rintro ⟨below, spelled⟩
    exact ⟨⟨by omega, spelled⟩, below⟩

theorem digitsFrom_concat (start : Nat) : digitsFrom base start (text ++ [char]) =
    (digitsFrom base start text).bind fun value => (digit? base char).map (base * value + ·) := by
  induction text generalizing start with
  | nil => cases read : digit? base char <;> simp [digitsFrom, read]
  | cons first rest inductionHypothesis =>
    rw [List.cons_append, digitsFrom, digitsFrom]
    cases digit? base first with
    | none => rfl
    | some digit => exact inductionHypothesis _

theorem natural?_concat (nonempty : text ≠ []) : natural? base (text ++ [char]) =
    (natural? base text).bind fun value => (digit? base char).map (base * value + ·) := by
  have notEmpty : text.isEmpty = false := List.isEmpty_eq_false_iff.mpr nonempty
  have concatNotEmpty : (text ++ [char]).isEmpty = false := by simp
  rw [natural?, natural?, notEmpty, concatNotEmpty, if_neg Bool.false_ne_true,
    if_neg Bool.false_ne_true, digitsFrom_concat]

theorem natural?_single : natural? base [char] = digit? base char := by
  cases read : digit? base char <;> simp [natural?, digitsFrom, read]

/-- Digits that are read are digits of the grammar. -/
theorem digits_of_natural? (small : base ≤ 16) (separators : Bool)
    (read : natural? base text = some value) : Digits separators base text text.length value := by
  induction text using List.reverseRecOn generalizing value with
  | nil => contradiction
  | append_singleton text char inductionHypothesis =>
    by_cases nonempty : text = []
    · subst nonempty
      rw [List.nil_append, natural?_single, digit?_eq_some_iff small] at read
      exact .single read
    · rw [natural?_concat nonempty] at read
      obtain ⟨before, beforeRead, lastRead⟩ := Option.bind_eq_some_iff.mp read
      obtain ⟨digit, digitRead, rfl⟩ := Option.map_eq_some_iff.mp lastRead
      rw [List.length_append]
      exact .next (inductionHypothesis beforeRead) ((digit?_eq_some_iff small).mp digitRead)

/-- Digits of the grammar are read unless there are separators between them. -/
theorem Digits.natural?_eq (small : base ≤ 16) (digits : Digits false base text count value) :
    natural? base text = some value ∧ text.length = count := by
  induction digits with
  | single first =>
    rw [natural?_single]
    exact ⟨(digit?_eq_some_iff small).mpr first, rfl⟩
  | next digits last inductionHypothesis =>
    obtain ⟨read, length⟩ := inductionHypothesis
    rw [natural?_concat digits.ne_nil, read, (digit?_eq_some_iff small).mpr last,
      List.length_append, length]
    exact ⟨rfl, rfl⟩
  | separated allowed _ _ => contradiction

end

end Template.Literal
