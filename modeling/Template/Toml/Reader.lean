import Template.Text.Digits
import Template.Text.Quoted
import Template.Toml.Table

/-!
# Reading TOML

A document is a list of statements, one a line: key and value, or the header of a
table or of an element of an array of tables. Readers take what they read from the
front of a text; `none` says that it does not fit.
-/

namespace Template.Toml

open Template.Text

/-- A function that takes what it reads from the front of a text. -/
abbrev Reader (α : Type) := List Char → Option (α × List Char)

namespace Read

/-! ## Blanks, comments and line ends -/

/-- The white space inside a line. -/
def isSpace (char : Char) : Bool := char == ' ' || char == '\t'

/-- The text after the white space it starts with. -/
def skipSpace (text : List Char) : List Char := text.dropWhile isSpace

/-- Whether a character may stand in a comment or, with exceptions, in a string. -/
def isPrintable (char : Char) : Bool :=
  char == '\t' || (0x20 ≤ char.toNat && char.toNat != 0x7F)

/-- Read a line end. -/
def newline? : List Char → Option (List Char)
  | '\n' :: rest => some rest
  | '\r' :: '\n' :: rest => some rest
  | _ => none

/-- The text after the comment it starts with, if it does. -/
def skipComment (text : List Char) : List Char :=
  match text with
  | '#' :: rest => rest.dropWhile isPrintable
  | _ => text

/-- Read what may follow a statement, up to the end of the line or of the text. -/
def lineEnd? (text : List Char) : Option (List Char) :=
  match skipComment (skipSpace text) with
  | [] => some []
  | rest => newline? rest

/-- The text after white space, comments and line ends; `fuel` bounds the lines. -/
def skipLinesFrom : (fuel : Nat) → List Char → List Char
  | 0, text => text
  | fuel + 1, text =>
    match newline? (skipComment (skipSpace text)) with
    | some rest => skipLinesFrom fuel rest
    | none => skipComment (skipSpace text)

/-- The text after white space, comments and line ends. -/
def skipLines (text : List Char) : List Char := skipLinesFrom (text.length + 1) text

/-! ## Strings -/

/-- The escapes of one letter. -/
def shortEscape? (char : Char) : Option Char :=
  if char == doubleQuote || char == backslash then some char
  else if char == 'b' then some '\x08'
  else if char == 'f' then some '\x0c'
  else if char == 'n' then some '\n'
  else if char == 'r' then some '\r'
  else if char == 't' then some '\t'
  else none

/-- The character of as many hexadecimal digits as `count` says. -/
def hexChar? (count : Nat) (text : List Char) : Option Char :=
  let digits := text.take count
  if digits.length == count then (natural? 16 digits).bind scalar? else none

/-- Read an escape after its backslash: the character it stands for and the number of
characters in its spelling. -/
def escape? : List Char → Option (Char × Nat)
  | [] => none
  | mark :: rest =>
    if mark == 'u' then (hexChar? 4 rest).map fun char => (char, 5)
    else if mark == 'U' then (hexChar? 8 rest).map fun char => (char, 9)
    else (shortEscape? mark).map fun char => (char, 1)

/-- Read a string on one line after its opening mark, passing over the first
`skipped` characters. Only double quotes know escapes. -/
def lineStringFrom (mark : Char) : (skipped : Nat) → Reader (List Char)
  | _, [] => none
  | skipped + 1, _ :: rest => lineStringFrom mark skipped rest
  | 0, char :: rest =>
    if char == mark then some ([], rest)
    else if char == backslash && mark == doubleQuote then do
      let (value, length) ← escape? rest
      let (others, after) ← lineStringFrom mark length rest
      return (value :: others, after)
    else if isPrintable char then do
      let (others, after) ← lineStringFrom mark 0 rest
      return (char :: others, after)
    else none

/-- The text after white space and line ends. -/
def skipBreaks : List Char → List Char
  | '\r' :: '\n' :: rest => skipBreaks rest
  | char :: rest => if isSpace char || char == '\n' then skipBreaks rest else char :: rest
  | [] => []

/-- The number of characters that a backslash at the end of a line removes. -/
def continuation? (text : List Char) : Option Nat :=
  (newline? (skipSpace text)).map fun rest => text.length - (skipBreaks rest).length

/-- Read a string of several lines after its opening marks, passing over the first
`skipped` characters. Up to two marks may stand in front of the closing three. -/
def textStringFrom (mark : Char) : (skipped : Nat) → Reader (List Char)
  | _, [] => none
  | skipped + 1, _ :: rest => textStringFrom mark skipped rest
  | 0, char :: rest =>
    if char == mark then
      let marks := ((char :: rest).takeWhile (· == mark)).length
      if 3 ≤ marks then
        let taken := min marks 5
        some (List.replicate (taken - 3) mark, (char :: rest).drop taken)
      else do
        let (others, after) ← textStringFrom mark 0 rest
        return (char :: others, after)
    else if char == backslash && mark == doubleQuote then
      match continuation? rest with
      | some length => textStringFrom mark length rest
      | none => do
          let (value, length) ← escape? rest
          let (others, after) ← textStringFrom mark length rest
          return (value :: others, after)
    else if char == '\r' then
      if rest.head? == some '\n' then textStringFrom mark 0 rest else none
    else if isPrintable char || char == '\n' then do
      let (others, after) ← textStringFrom mark 0 rest
      return (char :: others, after)
    else none

/-- Read a string on one line after its opening mark. -/
def lineString (mark : Char) : Reader String := fun text => do
  let (chars, rest) ← lineStringFrom mark 0 text
  return (String.ofList chars, rest)

/-- Read a string of several lines after its opening marks. A line end directly after
them does not count. -/
def textString (mark : Char) : Reader String := fun text => do
  let (chars, rest) ← textStringFrom mark 0 ((newline? text).getD text)
  return (String.ofList chars, rest)

/-- Read a string of either form after its first mark. -/
def string (mark : Char) : Reader String := fun text =>
  match text with
  | second :: third :: rest =>
    if second == mark && third == mark then textString mark rest else lineString mark text
  | _ => lineString mark text

/-! ## Keys -/

/-- Whether a character may stand in a key without quotes. -/
def isBare (char : Char) : Bool :=
  char.isAlphanum || char == '_' || char == '-'

/-- Read one key. -/
def simpleKey : Reader String := fun text =>
  match text with
  | [] => none
  | char :: rest =>
    if char == doubleQuote || char == singleQuote then lineString char rest
    else
      let bare := text.takeWhile isBare
      if bare.isEmpty then none else some (String.ofList bare, text.dropWhile isBare)

/-- The depth to which values may be nested, and the greatest length of a dotted key. -/
def maxDepth : Nat := 79

/-- Read keys with points between them; `fuel` bounds their number. -/
def keyFrom : (fuel : Nat) → Reader (List String)
  | 0, _ => none
  | fuel + 1, text => do
    let (key, rest) ← simpleKey (skipSpace text)
    match skipSpace rest with
    | '.' :: rest =>
        let (others, rest) ← keyFrom fuel rest
        return (key :: others, rest)
    | rest => return ([key], rest)

/-- Read a dotted key and the white space around it. -/
def key : Reader (List String) := keyFrom maxDepth

/-! ## Numbers -/

/-- Read the rest of a run of digits, in which single underscores may stand between
digits. -/
def digitsAfter (isDigit : Char → Bool) : List Char → List Char × List Char
  | [] => ([], [])
  | char :: rest =>
    if isDigit char then
      let (digits, after) := digitsAfter isDigit rest
      (char :: digits, after)
    else if char == '_' && rest.head?.any isDigit then digitsAfter isDigit rest
    else ([], char :: rest)

/-- Read one or more digits, without the underscores between them. -/
def digits (isDigit : Char → Bool) : Reader (List Char) := fun text =>
  if text.head?.any isDigit then some (digitsAfter isDigit text) else none

/-- Read digits of which the first is zero only if it is the only one. -/
def wholeDigits : Reader (List Char) := fun text =>
  match text with
  | '0' :: rest => some (['0'], rest)
  | _ => digits Char.isDigit text

/-- Read a sign, if there is one: whether it is a minus. -/
def sign (text : List Char) : Bool × List Char :=
  match text with
  | '-' :: rest => (true, rest)
  | '+' :: rest => (false, rest)
  | _ => (false, text)

/-- Read an integer in one of the other bases, after its zero and its letter. -/
def based (base : Nat) : Reader Toml := fun text => do
  let (found, rest) ← digits (fun char => (digit? base char).isSome) text
  let value ← int64? (Int.ofNat (← natural? base found))
  return (.integer value, rest)

/-- Read an integer. -/
def integer : Reader Toml := fun text =>
  match text with
  | '0' :: 'x' :: rest => based 16 rest
  | '0' :: 'o' :: rest => based 8 rest
  | '0' :: 'b' :: rest => based 2 rest
  | _ => do
      let (negative, rest) := sign text
      let (found, rest) ← wholeDigits rest
      let size ← natural? 10 found
      let value ← int64? (if negative then -Int.ofNat size else Int.ofNat size)
      return (.integer value, rest)

/-- Read the digits after a point. -/
def places : Reader (List Char) := fun text =>
  match text with
  | '.' :: rest => digits Char.isDigit rest
  | _ => none

/-- Read an exponent. -/
def exponent : Reader Int := fun text =>
  match text with
  | [] => none
  | mark :: rest =>
    if mark == 'e' || mark == 'E' then do
      let (negative, rest) := sign rest
      let (found, rest) ← digits Char.isDigit rest
      let size ← natural? 10 found
      return (if negative then -Int.ofNat size else Int.ofNat size, rest)
    else none

/-- Read what makes a number a decimal: places, an exponent, or both. -/
def decimalPart : Reader (List Char × Int) := fun text =>
  match places text with
  | some (found, rest) =>
    match exponent rest with
    | some (power, rest) => some ((found, power), rest)
    | none => some ((found, 0), rest)
  | none => (exponent text).map fun (power, rest) => (([], power), rest)

/-- Read a decimal number. One too great for a double is refused. -/
def decimal : Reader Toml := fun text => do
  let (negative, rest) := sign text
  let (whole, rest) ← wholeDigits rest
  let ((found, power), rest) ← decimalPart rest
  let coefficient ← natural? 10 (whole ++ found)
  let number := Double.ofDecimal negative ⟨coefficient, power - found.length⟩
  if number.isFinite || negative then return (.float number, rest) else none

/-- Infinity or NaN, after a sign. -/
def special : Reader Toml := fun text =>
  let (negative, rest) := sign text
  match rest with
  | 'i' :: 'n' :: 'f' :: rest =>
      some (.float ⟨negative, Double.infinite, Nat.le_refl _⟩, rest)
  | 'n' :: 'a' :: 'n' :: rest => some (.nan, rest)
  | _ => none

/-! ## Dates and times -/

/-- Read a number of exactly `count` digits within bounds. -/
def field (count least greatest : Nat) : Reader Nat := fun text => do
  let found := text.take count
  let value ← if found.length == count then natural? 10 found else none
  if least ≤ value ∧ value ≤ greatest then return (value, text.drop count) else none

/-- Read a given character. -/
def mark (expected : Char) (text : List Char) : Option (List Char) :=
  match text with
  | char :: rest => if char == expected then some rest else none
  | [] => none

/-- The number of days in a month. -/
def daysIn (year month : Nat) : Nat :=
  if month == 2 then
    if year % 4 == 0 && (year % 100 != 0 || year % 400 == 0) then 29 else 28
  else if month == 4 || month == 6 || month == 9 || month == 11 then 30
  else 31

/-- A number with zeros in front, to a width. -/
def padded (width value : Nat) : List Char :=
  let found := Nat.toDigits 10 value
  List.replicate (width - found.length) '0' ++ found

/-- Read a date, and give its text. -/
def date : Reader (List Char) := fun text => do
  let (year, rest) ← field 4 0 9999 text
  let (month, rest) ← field 2 1 12 (← mark '-' rest)
  let (day, rest) ← field 2 1 (daysIn year month) (← mark '-' rest)
  return (padded 4 year ++ '-' :: padded 2 month ++ '-' :: padded 2 day, rest)

/-- Read a fraction of a second, and give its first nine digits without the zeros at
their end. -/
def secondFraction (text : List Char) : Option (List Char × List Char) :=
  match text with
  | '.' :: rest =>
      let found := rest.takeWhile Char.isDigit
      let kept := (((found.take 9).reverse).dropWhile (· == '0')).reverse
      if found.isEmpty then none
      else some (if kept.isEmpty then [] else '.' :: kept, rest.dropWhile Char.isDigit)
  | _ => some ([], text)

/-- Read a time of day, and give its text. -/
def time : Reader (List Char) := fun text => do
  let (hour, rest) ← field 2 0 23 text
  let (minute, rest) ← field 2 0 59 (← mark ':' rest)
  let (second, rest) ← field 2 0 60 (← mark ':' rest)
  let (fraction, rest) ← secondFraction rest
  return (padded 2 hour ++ ':' :: padded 2 minute ++ ':' :: padded 2 second ++ fraction, rest)

/-- Read the distance to universal time, and give its text. A distance of nothing has
a plus sign. -/
def offset : Reader (List Char) := fun text =>
  match text with
  | [] => none
  | char :: rest =>
    if char == 'Z' || char == 'z' then some (['Z'], rest)
    else if char == '+' || char == '-' then do
      let (hour, rest) ← field 2 0 23 rest
      let (minute, rest) ← field 2 0 59 (← mark ':' rest)
      let shown := if hour == 0 && minute == 0 then '+' else char
      return (shown :: padded 2 hour ++ ':' :: padded 2 minute, rest)
    else none

/-- Read the time after a date. -/
def timeAfterDate : Reader (List Char) := fun text =>
  match text with
  | [] => none
  | char :: rest =>
    if char == 'T' || char == 't' || char == ' ' then do
      let (found, rest) ← time rest
      match offset rest with
      | some (distance, rest) => return (found ++ distance, rest)
      | none => return (found, rest)
    else none

/-- Read a date, a time, or both. -/
def dateTime : Reader Toml := fun text =>
  match date text with
  | some (day, rest) =>
    match timeAfterDate rest with
    | some (moment, rest) => some (.dateTime (String.ofList (day ++ 'T' :: moment)), rest)
    | none => some (.dateTime (String.ofList day), rest)
  | none => (time text).map fun (moment, rest) => (.dateTime (String.ofList moment), rest)

/-! ## Values -/

/-- Read a word that stands for a value. -/
def word (spelling : List Char) (value : Toml) : Reader Toml := fun text =>
  if spelling.isPrefixOf text then some (value, text.drop spelling.length) else none

/-- Read the items of an array after its opening bracket; `fuel` bounds their number. -/
def itemsFrom (value : Reader Toml) : (fuel : Nat) → Reader (List Toml)
  | 0, _ => none
  | fuel + 1, text =>
    match skipLines text with
    | ']' :: rest => some ([], rest)
    | text => do
      let (first, rest) ← value text
      match skipLines rest with
      | ',' :: rest =>
          let (others, rest) ← itemsFrom value fuel rest
          return (first :: others, rest)
      | ']' :: rest => return ([first], rest)
      | _ => none

/-- Read a key and a value. -/
def assignment (value : Reader Toml) : Reader (List String × Toml) := fun text => do
  let (path, rest) ← key text
  let (found, rest) ← value (skipSpace (← mark '=' rest))
  return ((path, found), rest)

/-- Read the entries of an inline table up to its closing brace; `fuel` bounds their
number. -/
def pairsFrom (value : Reader Toml) : (fuel : Nat) → Table → Reader Table
  | 0, _, _ => none
  | fuel + 1, current, text => do
    let ((path, found), rest) ← assignment value text
    let current ← current.assign path found
    match skipSpace rest with
    | ',' :: rest => pairsFrom value fuel current rest
    | '}' :: rest => return (current, rest)
    | _ => none

/-- Read an inline table after its opening brace. -/
def inlineTable (value : Reader Toml) : Reader Toml := fun text =>
  match skipSpace text with
  | '}' :: rest => some (.table [], rest)
  | text => do
      let (found, rest) ← pairsFrom value (text.length + 1) Table.empty text
      return (found.toml, rest)

/-- Read a value; `nested` reads the values inside arrays and inline tables, which are
refused where it is missing. -/
def valueWith (nested : Option (Reader Toml)) : Reader Toml := fun text =>
  match text with
  | [] => none
  | char :: rest =>
    if char == doubleQuote || char == singleQuote then
      (string char rest).map fun (value, rest) => (.string value, rest)
    else if char == 't' then word "true".toList (.boolean true) text
    else if char == 'f' then word "false".toList (.boolean false) text
    else if char == '[' then do
      let (items, rest) ← itemsFrom (← nested) (rest.length + 1) rest
      return (.array items, rest)
    else if char == '{' then do
      inlineTable (← nested) rest
    else
      (dateTime text).or ((decimal text).or ((special text).or (integer text)))

/-- Read a value with arrays and inline tables nested to at most a depth. -/
def value : (depth : Nat) → Reader Toml
  | 0 => valueWith none
  | depth + 1 => valueWith (some (value depth))

/-! ## Documents -/

/-- Read a statement and the rest of its line. -/
def statement : Reader Statement := fun text => do
  match text with
  | '[' :: '[' :: rest =>
      let (path, rest) ← key rest
      let rest ← lineEnd? (← mark ']' (← mark ']' rest))
      return (.openElement path, rest)
  | '[' :: rest =>
      let (path, rest) ← key rest
      let rest ← lineEnd? (← mark ']' rest)
      return (.openTable path, rest)
  | _ =>
      let ((path, found), rest) ← assignment (value maxDepth) text
      return (.assign path found, ← lineEnd? rest)

/-- Read statements to the end of the text; `fuel` bounds their number. -/
def statementsFrom : (fuel : Nat) → List Char → Option (List Statement)
  | 0, _ => none
  | fuel + 1, text =>
    match skipLines text with
    | [] => some []
    | text => do
      let (first, rest) ← statement text
      return first :: (← statementsFrom fuel rest)

/-- The text without the mark of byte order it may start with. -/
def skipMark (text : List Char) : List Char :=
  match text with
  | '\uFEFF' :: rest => rest
  | _ => text

end Read

/-- Read a document; `none` if the text is not one or defines something twice. -/
def parse? (text : String) : Option Toml := do
  let chars := Read.skipMark text.toList
  let statements ← Read.statementsFrom (chars.length + 1) chars
  let document ← Document.run {} statements
  return document.root.toml

end Template.Toml
