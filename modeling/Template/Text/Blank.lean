/-!
# Blanks and sizes of text

Fragments of a template are compared and embedded without the white space around
them. White space is the Unicode property `White_Space`. Positions in a text are
counted in bytes of its UTF-8 form.
-/

namespace Template.Text

/-- The 25 characters with the property `White_Space`. -/
def isBlank (char : Char) : Bool :=
  let code := char.toNat
  (0x09 ≤ code && code ≤ 0x0D) || code == 0x20 || code == 0x85 || code == 0xA0 ||
    code == 0x1680 || (0x2000 ≤ code && code ≤ 0x200A) || code == 0x2028 ||
    code == 0x2029 || code == 0x202F || code == 0x205F || code == 0x3000

/-- Drop the blanks a text starts with. -/
def stripStart (text : List Char) : List Char :=
  text.dropWhile isBlank

/-- Drop the blanks a text ends with. -/
def stripEnd (text : List Char) : List Char :=
  (text.reverse.dropWhile isBlank).reverse

/-- Drop the blanks on both sides of a text. -/
def strip (text : List Char) : List Char :=
  stripEnd (stripStart text)

/-- The text without the blanks around it. -/
def trim (text : String) : String :=
  String.ofList (strip text.toList)

/-- The number of bytes a list of characters takes in UTF-8. -/
def byteSize : List Char → Nat
  | [] => 0
  | char :: rest => char.utf8Size + byteSize rest

@[simp] theorem byteSize_nil : byteSize [] = 0 := rfl

@[simp] theorem byteSize_cons (char : Char) (rest : List Char) :
    byteSize (char :: rest) = char.utf8Size + byteSize rest := rfl

@[simp] theorem byteSize_append (first second : List Char) :
    byteSize (first ++ second) = byteSize first + byteSize second := by
  induction first with
  | nil => simp
  | cons char rest ih => simp [ih, Nat.add_assoc]

end Template.Text
