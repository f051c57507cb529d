import Template.Text.Blank
import Template.Text.Quoted
import Template.Double

/-!
# Literals

A source that is one literal of JavaScript has a value that is known before the
program runs. `Literal.read?` recognises strings in any of the three quotation
marks, numbers, booleans and `null`; every other source has no known value.
-/

namespace Template

/-- A value known from its source. -/
inductive Literal where
  | text (value : String)
  | number (value : Double)
  | boolean (value : Bool)
  | null
  deriving DecidableEq, Repr

namespace Literal

open Template.Text

/-- Whether a literal is `null` or a text of blanks only. -/
def isBlank : Literal → Bool
  | .text value => (strip value.toList).isEmpty
  | .null => true
  | .number _ | .boolean _ => false

/-- The escapes of one letter. -/
def shortEscape? (char : Char) : Option Char :=
  if char == 'n' then some '\n'
  else if char == 't' then some '\t'
  else if char == 'r' then some '\r'
  else if char == 'b' then some '\x08'
  else if char == 'f' then some '\x0c'
  else if char == 'v' then some '\x0b'
  else if char == '0' then some '\x00'
  else none

/-- The character with a code point written in hexadecimal. -/
def codePoint? (digits : List Char) : Option Char :=
  match unsigned? 16 digits with
  | some code => scalar? code
  | none => none

/-- Read an escape after its backslash: the characters it stands for and the
number of characters in its spelling. An escaped line end stands for nothing and
a character without a meaning of its own stands for itself. -/
def escape? : List Char → Option (List Char × Nat)
  | [] => none
  | 'x' :: first :: second :: _ =>
      (codePoint? [first, second]).map fun char => ([char], 3)
  | 'x' :: _ => none
  | 'u' :: '{' :: rest =>
      let code := rest.takeWhile (· != '}')
      if code.length < rest.length then
        (codePoint? code).map fun char => ([char], code.length + 3)
      else none
  | 'u' :: first :: second :: third :: fourth :: _ =>
      (codePoint? [first, second, third, fourth]).map fun char => ([char], 5)
  | 'u' :: _ => none
  | '\n' :: _ => some ([], 1)
  | char :: _ => some ([(shortEscape? char).getD char], 1)

/-- Read a string after its opening mark, passing over the first `skipped`
characters. The closing mark has to be the last character, and a template string
must not hold a substitution. -/
def stringFrom (mark : Char) : (skipped : Nat) → List Char → Option (List Char)
  | _, [] => none
  | skipped + 1, _ :: rest => stringFrom mark skipped rest
  | 0, char :: rest =>
    if char == backslash then
      match escape? rest with
      | none => none
      | some (value, length) => (stringFrom mark length rest).map (value ++ ·)
    else if mark == backtick && char == '$' && rest.head? == some '{' then none
    else if char == mark then
      if rest.isEmpty then some [] else none
    else (stringFrom mark 0 rest).map (char :: ·)

/-- Read a number without a sign: a hexadecimal integer of 64 bits, or a decimal
that starts with a digit or a point. -/
def unsignedNumber? (text : List Char) : Option Double :=
  match text with
  | '0' :: 'x' :: digits | '0' :: 'X' :: digits =>
      ((signed? 16 digits).bind int64?).map Double.ofInt
  | first :: _ =>
      if first.isDigit || first == '.' then
        (Decimal.read? text).map (Double.ofDecimal false)
      else none
  | [] => none

/-- Read a number that a minus sign and blanks may precede. -/
def number? (text : List Char) : Option Double :=
  match text with
  | '-' :: rest => (unsignedNumber? (stripStart rest)).map Double.neg
  | _ => unsignedNumber? text

/-- Read a literal from characters without blanks around them. -/
def ofChars? (text : List Char) : Option Literal :=
  if text == "true".toList then some (.boolean true)
  else if text == "false".toList then some (.boolean false)
  else if text == "null".toList then some .null
  else
    match text with
    | [] => none
    | first :: rest =>
      if first == doubleQuote || first == singleQuote || first == backtick then
        (stringFrom first 0 rest).map fun value => .text (String.ofList value)
      else (number? text).map .number

/-- The literal that a source consists of, if it is one. -/
def read? (source : String) : Option Literal :=
  ofChars? (strip source.toList)

end Literal

end Template
