/-!
# Quoted text

A text in double quotes, written so that it is one string token both in JSON and
in JavaScript: the quote, the backslash and the characters below U+0020 are
escaped and every other character stands for itself.
-/

namespace Template.Text

/-- The double quotation mark. -/
abbrev doubleQuote : Char := '\x22'

/-- The apostrophe, which also serves as a quotation mark. -/
abbrev singleQuote : Char := '\x27'

/-- The mark around a template string. -/
abbrev backtick : Char := '\x60'

/-- The character that protects the one after it. -/
abbrev backslash : Char := '\\'

/-- The spelling of one character inside double quotes. Control characters have
a short escape if there is one, and four hexadecimal digits otherwise. -/
def escape (char : Char) : List Char :=
  if char == doubleQuote then [backslash, doubleQuote]
  else if char == backslash then [backslash, backslash]
  else if char == '\x08' then [backslash, 'b']
  else if char == '\t' then [backslash, 't']
  else if char == '\n' then [backslash, 'n']
  else if char == '\x0c' then [backslash, 'f']
  else if char == '\r' then [backslash, 'r']
  else if char.toNat < 0x20 then
    [backslash, 'u', '0', '0', Nat.digitChar (char.toNat / 16), Nat.digitChar (char.toNat % 16)]
  else [char]

/-- The characters of a text in double quotes. -/
def quoteChars (text : List Char) : List Char :=
  doubleQuote :: (text.flatMap escape ++ [doubleQuote])

/-- The text in double quotes. -/
def quote (text : String) : String :=
  String.ofList (quoteChars text.toList)

end Template.Text
