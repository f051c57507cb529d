import Template.Json
import Template.Json.Numeral
import Template.Text.Blank
import Template.Text.Quoted

/-!
# Reading JSON

Readers take what they read from the front of a text and return the rest. A text is
read from left to right and the first fault wins: the text ends where more is
needed, or a character does not fit. Arrays and objects may be nested only to a
given depth. A number that is no integer of 64 bits is converted to a double in a given
way, and has to be finite.
-/

namespace Template.Json

open Template.Text

/-- Why a text is not JSON. -/
inductive Fault where
  /-- The text ends too early. -/
  | truncated
  /-- A character that does not fit. -/
  | malformed
  deriving DecidableEq, Repr

/-- A function that takes what it reads from the front of a text. -/
abbrev Reader (α : Type) := List Char → Except Fault (α × List Char)

namespace Read

variable {α : Type}

/-- The white space between tokens. -/
def isSpace (char : Char) : Bool :=
  char == ' ' || char == '\t' || char == '\n' || char == '\r'

/-- The text from its next token on. -/
def skipSpace (text : List Char) : List Char := text.dropWhile isSpace

/-- The fault at the place where a token breaks off. -/
def faultAt (rest : List Char) : Fault :=
  if rest.isEmpty then .truncated else .malformed

/-- Read the characters of a word. -/
def word : List Char → List Char → Except Fault (List Char)
  | [], text => .ok text
  | _ :: _, [] => .error .truncated
  | expected :: others, char :: rest =>
    if char == expected then word others rest else .error .malformed

/-! ## Strings -/

/-- The number written by the four hexadecimal digits a text starts with. The text
is truncated when it has fewer than four bytes. -/
def codeUnit (text : List Char) : Except Fault Nat :=
  if byteSize (text.take 4) < 4 then .error .truncated
  else
    match text with
    | first :: second :: third :: fourth :: _ =>
      match Text.natural? 16 [first, second, third, fourth] with
      | some value => .ok value
      | none => .error .malformed
    | _ => .error .malformed

/-- Whether a code unit is the first of a pair. -/
def isHigh (unit : Nat) : Bool := 0xD800 ≤ unit && unit ≤ 0xDBFF

/-- Whether a code unit is the second of a pair. -/
def isLow (unit : Nat) : Bool := 0xDC00 ≤ unit && unit ≤ 0xDFFF

/-- The character of a pair of code units. -/
def pairChar (high low : Nat) : Char :=
  Char.ofNat ((high - 0xD800) * 0x400 + (low - 0xDC00) + 0x10000)

/-- The second code unit of a pair, which is an escape of its own. -/
def lowUnit : List Char → Except Fault Nat
  | [] => .error .truncated
  | [char] => .error (if char == backslash then .truncated else .malformed)
  | char :: mark :: rest =>
    if char == backslash && mark == 'u' then do
      let low ← codeUnit rest
      if isLow low then .ok low else .error .malformed
    else .error .malformed

/-- The escapes of one character. -/
def shortEscape? (char : Char) : Option Char :=
  if char == doubleQuote || char == backslash || char == '/' then some char
  else if char == 'b' then some '\x08'
  else if char == 'f' then some '\x0c'
  else if char == 'n' then some '\n'
  else if char == 'r' then some '\r'
  else if char == 't' then some '\t'
  else none

/-- Read an escape after its backslash: the character it stands for and the number
of characters in its spelling. Code units of a pair have to come together. -/
def escape : List Char → Except Fault (Char × Nat)
  | [] => .error .truncated
  | mark :: rest =>
    if mark == 'u' then do
      let unit ← codeUnit rest
      if isLow unit then .error .malformed
      else if isHigh unit then do
        let low ← lowUnit (rest.drop 4)
        .ok (pairChar unit low, 11)
      else .ok (Char.ofNat unit, 5)
    else
      match shortEscape? mark with
      | some char => .ok (char, 1)
      | none => .error .malformed

/-- Read a string after its opening quote, passing over the first `skipped`
characters. Control characters have to be escaped. -/
def stringFrom : (skipped : Nat) → Reader (List Char)
  | _, [] => .error .truncated
  | skipped + 1, _ :: rest => stringFrom skipped rest
  | 0, char :: rest =>
    if char == doubleQuote then .ok ([], rest)
    else if char == backslash then do
      let (value, length) ← escape rest
      let (others, after) ← stringFrom length rest
      .ok (value :: others, after)
    else if char.toNat < 0x20 then .error .malformed
    else do
      let (others, after) ← stringFrom 0 rest
      .ok (char :: others, after)

/-- Read a string after its opening quote. -/
def string : Reader String := fun text => do
  let (chars, rest) ← stringFrom 0 text
  .ok (String.ofList chars, rest)

/-! ## Numbers -/

/-- Read one or more digits. -/
def digits : Reader (List Char) := fun text =>
  let found := text.takeWhile Char.isDigit
  let rest := text.dropWhile Char.isDigit
  if found.isEmpty then .error (faultAt rest) else .ok (found, rest)

/-- Read the digits after the point, if there is a point. -/
def fraction : Reader (Option (List Char)) := fun text =>
  match text with
  | '.' :: rest => do
      let (found, rest) ← digits rest
      .ok (some found, rest)
  | _ => .ok (none, text)

/-- Read the sign and the digits of the exponent, if there is one. -/
def exponent : Reader (Option Int) := fun text =>
  match text with
  | [] => .ok (none, text)
  | mark :: rest =>
    if mark == 'e' || mark == 'E' then
      let (negative, rest) :=
        match rest with
        | '-' :: rest => (true, rest)
        | '+' :: rest => (false, rest)
        | _ => (false, rest)
      do
        let (found, rest) ← digits rest
        let value : Int := ((Text.natural? 10 found).getD 0 : Nat)
        .ok (some (if negative then -value else value), rest)
    else .ok (none, text)

/-- Read a numeral. Zero has no further digits in front of the point. -/
def numeral : Reader Numeral := fun text => do
  let (negative, text) :=
    match text with
    | '-' :: rest => (true, rest)
    | _ => (false, text)
  let (whole, rest) ← digits text
  if whole.head? == some '0' && whole.length != 1 then .error .malformed
  else
    let (fraction, rest) ← fraction rest
    let (exponent, rest) ← exponent rest
    .ok ({ negative, whole, fraction, exponent }, rest)

/-- Read a number. -/
def number (convert : Numeral → Double) : Reader Json := fun text => do
  let (numeral, rest) ← numeral text
  match numeral.integer? with
  | some value => .ok (.integer value, rest)
  | none =>
    let double := convert numeral
    if double.isFinite then .ok (.float double, rest) else .error .malformed

/-! ## Arrays and objects -/

/-- What follows inside brackets: a further entry, or nothing and the text after the
closing bracket. -/
inductive Next where
  | entry (text : List Char)
  | closed (rest : List Char)

/-- Find the next entry, which a comma precedes unless it is the first. -/
def next (closer : Char) (first : Bool) (text : List Char) : Except Fault Next :=
  match skipSpace text with
  | [] => .error .truncated
  | char :: rest =>
    if char == closer then .ok (.closed rest)
    else if first then .ok (.entry (char :: rest))
    else if char == ',' then .ok (.entry (skipSpace rest))
    else .error .malformed

/-- Read entries up to a closing bracket; `fuel` bounds their number. -/
def entriesFrom (closer : Char) (entry : Reader α) :
    (fuel : Nat) → (first : Bool) → Reader (List α)
  | 0, _, _ => .error .truncated
  | fuel + 1, first, text => do
    match ← next closer first text with
    | .closed rest => .ok ([], rest)
    | .entry text =>
        let (value, rest) ← entry text
        let (others, rest) ← entriesFrom closer entry fuel false rest
        .ok (value :: others, rest)

/-- Read entries up to a closing bracket. Each takes at least one character, so the
length of the text bounds their number. -/
def entries (closer : Char) (entry : Reader α) (first : Bool) : Reader (List α) :=
  fun text => entriesFrom closer entry (text.length + 1) first text

/-- Read the name of a member. -/
def name : Reader String := fun text =>
  match text with
  | [] => .error .truncated
  | char :: rest => if char == doubleQuote then string rest else .error .malformed

/-- Read the colon after the name of a member. -/
def colon (text : List Char) : Except Fault (List Char) :=
  match skipSpace text with
  | [] => .error .truncated
  | char :: rest => if char == ':' then .ok rest else .error .malformed

/-- Read a name and a value. -/
def member (value : Reader Json) : Reader (String × Json) := fun text => do
  let (key, rest) ← name text
  let (found, rest) ← value (← colon rest)
  .ok ((key, found), rest)

/-- Read a value; `nested` reads the values inside arrays and objects, which are
refused where it is missing. -/
def valueWith (convert : Numeral → Double) (nested : Option (Reader Json)) : Reader Json :=
  fun text =>
  match skipSpace text with
  | [] => .error .truncated
  | char :: rest =>
    if char == 'n' then return (.null, ← word "ull".toList rest)
    else if char == 't' then return (.boolean true, ← word "rue".toList rest)
    else if char == 'f' then return (.boolean false, ← word "alse".toList rest)
    else if char == doubleQuote then do
      let (value, rest) ← string rest
      return (.string value, rest)
    else if char == '-' || char.isDigit then number convert (char :: rest)
    else
      match nested with
      | none => .error .malformed
      | some nested =>
        if char == '[' then do
          let (items, rest) ← entries ']' nested true rest
          return (.array items, rest)
        else if char == '{' then do
          let (members, rest) ← entries '}' (member nested) true rest
          return (.object members, rest)
        else .error .malformed

/-- Read a value with arrays and objects nested to at most a depth. -/
def value (convert : Numeral → Double) : (depth : Nat) → Reader Json
  | 0 => valueWith convert none
  | depth + 1 => valueWith convert (some (value convert depth))

end Read

/-- Read a text that is one value. -/
def parse (convert : Numeral → Double) (depth : Nat) (text : String) : Except Fault Json := do
  let (found, rest) ← Read.value convert depth text.toList
  if (Read.skipSpace rest).isEmpty then .ok found else .error .malformed

end Template.Json
