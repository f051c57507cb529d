import Template.Literal
import Template.Proofs.Fragment.Leading
import Template.Proofs.Text.Trimming

/-!
# Quoted texts are literals

A quoted text is a literal whose value is the text: the reader undoes one escape at a time,
whatever follows it (`stringFrom_escape`), and reaches the closing mark when the text is used
up.  So the spelling determines the text, also if it is known only as the beginning of a
longer source (`quote_append_inj`): the closing mark is the first one that no backslash
protects.
-/

namespace Template

namespace Literal

open Template.Text

/-! ## Reading escapes -/

theorem stringFrom_backslash {rest value : List Char} {length : Nat}
    (reads : escape? rest = some (value, length)) (mark : Char) :
    stringFrom mark 0 (backslash :: rest) = (stringFrom mark length rest).map (value ++ ·) := by
  simp [stringFrom, reads]

theorem codePoint?_control {code : Nat} (control : code < 0x20) :
    codePoint? ['0', '0', Nat.digitChar (code / 16), Nat.digitChar (code % 16)] =
      some (Char.ofNat code) := by
  have every : ∀ code < 0x20,
      codePoint? ['0', '0', Nat.digitChar (code / 16), Nat.digitChar (code % 16)] =
        some (Char.ofNat code) := by decide
  exact every code control

/-- Reading undoes the escaping of a character. -/
theorem stringFrom_escape (char : Char) (rest : List Char) :
    stringFrom doubleQuote 0 (Text.escape char ++ rest) =
      (stringFrom doubleQuote 0 rest).map (char :: ·) := by
  unfold Text.escape
  -- The quote, the backslash and the control characters that have a letter.
  iterate 7
    split
    next same =>
      rw [eq_of_beq same]
      rfl
  next noQuote noBackslash _ _ _ _ _ =>
  split
  next control =>
    have reads : escape? ('u' :: '0' :: '0' :: Nat.digitChar (char.toNat / 16) ::
        Nat.digitChar (char.toNat % 16) :: rest) = some ([char], 5) := by
      change (codePoint? ['0', '0', _, _]).map (fun char => ([char], 5)) = _
      rw [codePoint?_control control, Char.ofNat_toNat]
      rfl
    exact stringFrom_backslash reads doubleQuote
  next =>
    have noTemplate : (doubleQuote == backtick) = false := by decide
    rw [List.singleton_append, stringFrom, if_neg noBackslash, noTemplate, Bool.false_and,
      Bool.false_and, if_neg Bool.false_ne_true, if_neg noQuote]

theorem stringFrom_escapes (text : List Char) :
    stringFrom doubleQuote 0 (text.flatMap Text.escape ++ [doubleQuote]) = some text := by
  induction text with
  | nil => rfl
  | cons char rest inductionHypothesis =>
      rw [List.flatMap_cons, List.append_assoc, stringFrom_escape, inductionHypothesis]
      rfl

theorem ofChars?_quoteChars (text : List Char) :
    ofChars? (quoteChars text) = some (.text (String.ofList text)) := by
  have noKeyword : doubleQuote ≠ 't' ∧ doubleQuote ≠ 'f' ∧ doubleQuote ≠ 'n' := by decide
  simp [ofChars?, quoteChars, noKeyword, stringFrom_escapes]

@[simp] theorem strip_quoteChars (text : List Char) : strip (quoteChars text) = quoteChars text :=
  strip_between rfl rfl _

theorem read?_quoteChars (text : List Char) :
    read? (String.ofList (quoteChars text)) = some (.text (String.ofList text)) := by
  rw [read?, String.toList_ofList, strip_quoteChars, ofChars?_quoteChars]

/-- The value of a quoted text is the text. -/
theorem read?_quote (text : String) : read? (quote text) = some (.text text) := by
  rw [quote, read?_quoteChars, String.ofList_toList]

end Literal

/-! ## What follows a quoted text -/

namespace Fragment

/-- A string ends at the first mark that is not protected. -/
theorem QuotedText.append_mark_inj {mark : Char} (noBackslash : mark ≠ Text.backslash)
    {first second firstRest secondRest : List Char} (firstInside : QuotedText mark first)
    (secondInside : QuotedText mark second)
    (same : first ++ mark :: firstRest = second ++ mark :: secondRest) :
    first = second ∧ firstRest = secondRest := by
  induction firstInside generalizing second with
  | nil =>
      cases secondInside with
      | nil => exact ⟨rfl, (List.cons.inj same).2⟩
      | escaped => exact absurd (List.cons.inj same).1 noBackslash
      | plain _ noMark _ => exact absurd (List.cons.inj same).1.symm noMark
  | escaped others inductionHypothesis =>
      cases secondInside with
      | nil => exact absurd (List.cons.inj same).1.symm noBackslash
      | escaped otherInside =>
          obtain ⟨charEq, restEq⟩ := List.cons.inj (List.cons.inj same).2
          obtain ⟨rfl, rfl⟩ := inductionHypothesis otherInside restEq
          exact ⟨by rw [charEq], rfl⟩
      | plain otherBackslash _ _ => exact absurd (List.cons.inj same).1.symm otherBackslash
  | plain plainChar noMark others inductionHypothesis =>
      cases secondInside with
      | nil => exact absurd (List.cons.inj same).1 noMark
      | escaped => exact absurd (List.cons.inj same).1 plainChar
      | plain _ _ otherInside =>
          obtain ⟨charEq, restEq⟩ := List.cons.inj same
          obtain ⟨rfl, rfl⟩ := inductionHypothesis otherInside restEq
          exact ⟨by rw [charEq], rfl⟩

end Fragment

namespace Text

theorem quoteChars_append_inj {first second firstRest secondRest : List Char}
    (same : quoteChars first ++ firstRest = quoteChars second ++ secondRest) :
    first = second ∧ firstRest = secondRest := by
  have inside : first.flatMap escape ++ doubleQuote :: firstRest =
      second.flatMap escape ++ doubleQuote :: secondRest := by
    simpa [quoteChars] using same
  obtain ⟨escapesEq, restEq⟩ := Fragment.QuotedText.append_mark_inj (by decide)
    (Fragment.QuotedText.escapes first) (Fragment.QuotedText.escapes second) inside
  have firstRead := Literal.stringFrom_escapes first
  rw [escapesEq, Literal.stringFrom_escapes second] at firstRead
  exact ⟨(Option.some.inj firstRead).symm, restEq⟩

/-- The text that a source begins with in quotes is determined by the source. -/
theorem quote_append_inj {first second firstRest secondRest : String}
    (same : quote first ++ firstRest = quote second ++ secondRest) :
    first = second ∧ firstRest = secondRest := by
  rw [← String.toList_inj, String.toList_append, String.toList_append, quote, quote,
    String.toList_ofList, String.toList_ofList] at same
  obtain ⟨textEq, restEq⟩ := quoteChars_append_inj same
  exact ⟨String.toList_inj.mp textEq, String.toList_inj.mp restEq⟩

theorem quote_injective : Function.Injective quote := by
  intro first second same
  have followed : quote first ++ "" = quote second ++ "" := by rw [same]
  exact (quote_append_inj followed).1

end Text

end Template
