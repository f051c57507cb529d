import Template.Json.Reader

/-!
# Spellings of JSON values

A value can be written in many ways: with white space between tokens, with escapes in
its strings, with zeros and exponents in its numbers.  `Json.Spelling` is the grammar
of all of them.  What a number stands for that is no integer of 64 bits, and which of
those numbers are admitted, are parameters.  The grammar is independent of the reader.
-/

namespace Template.Json

open Template.Text

/-- White space that has no meaning. -/
def Spaces (text : List Char) : Prop :=
  ∀ char ∈ text, char ∈ [' ', '\t', '\n', '\r']

instance (text : List Char) : Decidable (Spaces text) :=
  List.decidableBAll (· ∈ [' ', '\t', '\n', '\r']) text

/-! ## Strings -/

/-- A character that stands for itself inside a string. -/
def IsPlain (char : Char) : Prop :=
  char ≠ doubleQuote ∧ char ≠ backslash ∧ 0x20 ≤ char.toNat

instance (char : Char) : Decidable (IsPlain char) :=
  inferInstanceAs (Decidable (char ≠ doubleQuote ∧ char ≠ backslash ∧ 0x20 ≤ char.toNat))

/-- A text that needs no escapes. -/
def PlainText (text : List Char) : Prop :=
  ∀ char ∈ text, IsPlain char

instance (text : List Char) : Decidable (PlainText text) :=
  List.decidableBAll IsPlain text

/-- The letters after a backslash, each with the character that it stands for. -/
def letterEscapes : List (Char × Char) :=
  [(doubleQuote, doubleQuote), (backslash, backslash), ('/', '/'), ('b', '\x08'), ('f', '\x0c'),
    ('n', '\n'), ('r', '\r'), ('t', '\t')]

/-- Four hexadecimal digits of either case, with the number that they write. -/
def FourDigits (digits : List Char) (value : Nat) : Prop :=
  digits.length = 4 ∧ Text.natural? 16 digits = some value

instance (digits : List Char) (value : Nat) : Decidable (FourDigits digits value) :=
  inferInstanceAs (Decidable (digits.length = 4 ∧ Text.natural? 16 digits = some value))

/-- The spellings of a character inside a string: itself, a backslash with a letter, a
code unit, or the two code units of a character above U+FFFF. -/
inductive CharSpelling : Char → List Char → Prop where
  | plain {char : Char} (plain : IsPlain char) : CharSpelling char [char]
  | letter {mark char : Char} (escape : (mark, char) ∈ letterEscapes) :
      CharSpelling char [backslash, mark]
  | unit {char : Char} {digits : List Char} (written : FourDigits digits char.toNat) :
      CharSpelling char (backslash :: 'u' :: digits)
  | pair {char : Char} {high low : List Char} (above : 0x10000 ≤ char.toNat)
      (highWritten : FourDigits high (0xD800 + (char.toNat - 0x10000) / 0x400))
      (lowWritten : FourDigits low (0xDC00 + (char.toNat - 0x10000) % 0x400)) :
      CharSpelling char (backslash :: 'u' :: (high ++ backslash :: 'u' :: low))

/-- The spellings of characters in a row. -/
inductive CharsSpelling : List Char → List Char → Prop where
  | nil : CharsSpelling [] []
  | cons {char : Char} {chars spelling text : List Char} (first : CharSpelling char spelling)
      (others : CharsSpelling chars text) : CharsSpelling (char :: chars) (spelling ++ text)

/-- The spellings of a string, with its quotes. -/
inductive StringSpelling : String → List Char → Prop where
  | quoted {value : String} {text : List Char} (chars : CharsSpelling value.toList text) :
      StringSpelling value (doubleQuote :: (text ++ [doubleQuote]))

theorem CharsSpelling.of_plain {chars : List Char} (plain : PlainText chars) :
    CharsSpelling chars chars := by
  induction chars with
  | nil => exact .nil
  | cons char others inductionHypothesis =>
      obtain ⟨first, later⟩ := List.forall_mem_cons.mp plain
      exact .cons (.plain first) (inductionHypothesis later)

/-- A string without escapes is spelled by its characters. -/
theorem StringSpelling.of_plain {value : String} (plain : PlainText value.toList) :
    StringSpelling value (doubleQuote :: (value.toList ++ [doubleQuote])) :=
  .quoted (.of_plain plain)

/-! ## Numbers -/

/-- One or more decimal digits. -/
def Digits (text : List Char) : Prop :=
  text ≠ [] ∧ ∀ char ∈ text, char.isDigit = true

instance (text : List Char) : Decidable (Digits text) :=
  @instDecidableAnd _ _ inferInstance (List.decidableBAll (·.isDigit = true) text)

/-- The spellings of the places after the point. -/
inductive FractionSpelling : Option (List Char) → List Char → Prop where
  | missing : FractionSpelling none []
  | places {digits : List Char} (written : Digits digits) :
      FractionSpelling (some digits) ('.' :: digits)

/-- The spellings of an exponent. -/
inductive ExponentSpelling : Option Int → List Char → Prop where
  | missing : ExponentSpelling none []
  | positive {mark : Char} {sign digits : List Char} {value : Nat} (marked : mark ∈ ['e', 'E'])
      (signed : sign ∈ [[], ['+']]) (written : Digits digits)
      (read : Text.natural? 10 digits = some value) :
      ExponentSpelling (some value) (mark :: (sign ++ digits))
  | negative {mark : Char} {digits : List Char} {value : Nat} (marked : mark ∈ ['e', 'E'])
      (written : Digits digits) (read : Text.natural? 10 digits = some value) :
      ExponentSpelling (some (-value)) (mark :: '-' :: digits)

/-- The spellings of a numeral, which has no zero in front of other digits. -/
inductive NumeralSpelling : Numeral → List Char → Prop where
  | number {negative : Bool} {whole fractionText exponentText : List Char}
      {fraction : Option (List Char)} {exponent : Option Int} (written : Digits whole)
      (noZero : whole.head? = some '0' → whole.length = 1)
      (fractionWritten : FractionSpelling fraction fractionText)
      (exponentWritten : ExponentSpelling exponent exponentText) :
      NumeralSpelling { negative, whole, fraction, exponent }
        ((if negative then ['-'] else []) ++ (whole ++ (fractionText ++ exponentText)))

/-! ## Values -/

/-- The texts between two brackets: entries with commas between them, and white space
around each. -/
inductive Separated {α : Type} (spells : α → List Char → Prop) : List α → List Char → Prop where
  | empty {space : List Char} (spaces : Spaces space) : Separated spells [] space
  | last {entry : α} {before text after : List Char} (spacesBefore : Spaces before)
      (spelled : spells entry text) (spacesAfter : Spaces after) :
      Separated spells [entry] (before ++ (text ++ after))
  | more {entry next : α} {rest : List α} {before text after others : List Char}
      (spacesBefore : Spaces before) (spelled : spells entry text) (spacesAfter : Spaces after)
      (later : Separated spells (next :: rest) others) :
      Separated spells (entry :: next :: rest) (before ++ (text ++ (after ++ ',' :: others)))

/-- The texts of a member: its name, a colon and its value. -/
inductive MemberSpelling (spells : Json → List Char → Prop) :
    String × Json → List Char → Prop where
  | pair {name : String} {value : Json} {nameText before after text : List Char}
      (named : StringSpelling name nameText) (spacesBefore : Spaces before)
      (spacesAfter : Spaces after) (spelled : spells value text) :
      MemberSpelling spells (name, value) (nameText ++ (before ++ ':' :: (after ++ text)))

/-- A member without escapes in its name and without white space. -/
theorem MemberSpelling.of_plain {spells : Json → List Char → Prop} {name : String} {value : Json}
    {text : List Char} (plain : PlainText name.toList) (spelled : spells value text) :
    MemberSpelling spells (name, value)
      (doubleQuote :: (name.toList ++ [doubleQuote]) ++ ([] ++ ':' :: ([] ++ text))) :=
  .pair (.of_plain plain) nofun nofun spelled

/-- The spellings of a value.  A number that is no integer of 64 bits has to be admitted,
and stands for the double that it is converted to. -/
inductive Spelling (convert : Numeral → Double) (admits : Numeral → Prop) :
    Json → List Char → Prop where
  | null : Spelling convert admits .null ['n', 'u', 'l', 'l']
  | yes : Spelling convert admits (.boolean true) ['t', 'r', 'u', 'e']
  | no : Spelling convert admits (.boolean false) ['f', 'a', 'l', 's', 'e']
  | integer {numeral : Numeral} {value : Int} {text : List Char}
      (written : NumeralSpelling numeral text) (whole : numeral.integer? = some value) :
      Spelling convert admits (.integer value) text
  | float {numeral : Numeral} {text : List Char} (written : NumeralSpelling numeral text)
      (notWhole : numeral.integer? = none) (admitted : admits numeral) :
      Spelling convert admits (.float (convert numeral)) text
  | string {value : String} {text : List Char} (written : StringSpelling value text) :
      Spelling convert admits (.string value) text
  | array {items : List Json} {text : List Char}
      (written : Separated (Spelling convert admits) items text) :
      Spelling convert admits (.array items) ('[' :: (text ++ [']']))
  | object {members : List (String × Json)} {text : List Char}
      (written : Separated (MemberSpelling (Spelling convert admits)) members text) :
      Spelling convert admits (.object members) ('\x7b' :: (text ++ ['\x7d']))

end Template.Json
