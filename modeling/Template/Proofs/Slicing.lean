import Template.Proofs.Literal.Slicing
import Template.Proofs.Segment.Slicing

/-!
# No cut inside a character

Interpolated text, fragments, arrays and strings are taken apart at byte positions.  A position
is one of a character that was read, of a bracket or a brace that was found, or one of these and
the length of a character known to be one byte.  So each cut is made where a character begins or
the text ends, and no text makes one of these functions stop with a fault.
-/

namespace Template

open Text

/-- A cut succeeds at the boundaries of characters only, and whatever the text is, all cuts that
are made in it succeed: the position of a closing bracket, the parts between separators, the
elements of an array, a string behind its mark and the sentinels of interpolated text are found
with cuts as they are from the characters.  A bracket that is found is one byte between two
boundaries, and behind a code that is a number as many characters are passed over as it is
spelled with. -/
theorem cuts_on_boundaries (text : String) :
    (∀ start stop, (∃ piece, slice text start stop = .ok piece) ↔
      IsBoundary text start ∧ IsBoundary text stop ∧ start ≤ stop) ∧
    Fragment.closePosition text = .ok (Fragment.matchingClose? text) ∧
    (∀ position, Fragment.matchingClose? text = some position →
      0 < position ∧ IsBoundary text position ∧ IsBoundary text (position + 1)) ∧
    (∀ separator,
      Fragment.cutParts separator text = .ok (Fragment.topLevelParts? separator text)) ∧
    Fragment.cutElements text = .ok (Fragment.arrayElements? text) ∧
    (∀ mark, Literal.cutString mark text = .ok ((Literal.behindMark? mark text).bind fun body =>
      (Literal.stringFrom mark 0 body.toList).map String.ofList)) ∧
    (∀ code used char, Literal.cutCode text = .ok (some (code, used)) →
      Literal.codePoint? code.toList = some char →
      used = (Literal.codeSpelling text code).length ∧
        Literal.codeSpelling text code <+: text.toList) ∧
    Segment.cutSentinels text = .ok (Segment.sentinelsOfText text) := by
  refine ⟨fun _ _ => exists_slice_iff, Fragment.closePosition_eq text, ?_, ?_,
    Fragment.cutElements_eq text, ?_, ?_, Segment.cutSentinels_eq text⟩
  · intro position found
    exact Fragment.isBoundary_matchingClose? found
  · intro separator
    exact Fragment.cutParts_eq separator text
  · intro mark
    exact Literal.cutString_eq mark text
  · intro code used char cut number
    exact Literal.cutCode_spelling cut number

/-- A fragment in braces with characters of two and of four bytes, and a code in braces in front
of one of two bytes. -/
def wideFragment : String := "\x7bé💡\x7d"

def wideCode : String := "\x7b1F4A1\x7dé"

example : ¬ IsBoundary wideFragment 2 := by decide

theorem cuts_on_boundaries_wide :
    Fragment.matchingClose? wideFragment = some 7 ∧ IsBoundary wideFragment 7 ∧
    IsBoundary wideFragment 8 ∧
    Literal.cutCode wideCode = .ok (some ("1F4A1", 7)) ∧
    (Literal.codeSpelling wideCode "1F4A1").length = 7 := by
  obtain ⟨-, -, boundaries, -⟩ := cuts_on_boundaries wideFragment
  obtain ⟨-, -, -, -, -, -, codes, -⟩ := cuts_on_boundaries wideCode
  have close : Fragment.matchingClose? wideFragment = some 7 := by decide +kernel
  have spelled : wideCode.toList = '{' :: ("1F4A1".toList ++ '}' :: ['é']) := rfl
  have cut : Literal.cutCode wideCode = .ok (some ("1F4A1", 7)) :=
    Literal.cutCode_braced spelled (by decide)
  obtain ⟨-, first, last⟩ := boundaries 7 close
  obtain ⟨used, -⟩ := codes "1F4A1" 7 '💡' cut (by decide +kernel)
  exact ⟨close, first, last, cut, used.symm⟩

end Template
