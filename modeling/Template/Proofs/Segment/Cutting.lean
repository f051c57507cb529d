import Template.Proofs.Fragment.Grammar
import Template.Segment

/-!
# Cutting a text

One equation for each way a text can begin: with a marker that is closed, with one that
is not, with a backslash in front of a marker, and with any other character.  What is
shown of all texts is shown along these four (`Segment.textInduction`), without the number
of characters to pass over that the definition carries.
-/

namespace Template

open Fragment (Balanced spanClose?)
open Text (backslash)

namespace Sigil

@[simp] theorem ofText?_char (sigil : Sigil) (rest : List Char) :
    ofText? (sigil.char :: '{' :: rest) = some sigil := by
  cases sigil <;> rfl

theorem ofText?_backslash (rest : List Char) : ofText? (backslash :: rest) = none := by
  unfold ofText?
  split
  next same =>
    cases same
    rfl
  next => rfl

theorem eq_of_ofText? {text : List Char} {sigil : Sigil} (found : ofText? text = some sigil) :
    ∃ rest, text = sigil.char :: '{' :: rest := by
  unfold ofText? at found
  split at found
  next char rest =>
    refine ⟨rest, ?_⟩
    unfold ofChar? at found
    split at found
    next isSharp =>
      cases found
      rw [eq_of_beq isSharp]
      rfl
    next =>
      split at found
      next isBang =>
        cases found
        rw [eq_of_beq isBang]
        rfl
      next => cases found
  next => cases found

end Sigil

namespace Segment

theorem segmentsFrom_eq_drop (skipped : Nat) (text : List Char) :
    segmentsFrom skipped text = ofText (text.drop skipped) := by
  induction text generalizing skipped with
  | nil =>
      rw [List.drop_nil]
      cases skipped <;> rfl
  | cons char rest inductionHypothesis =>
      cases skipped with
      | zero => rfl
      | succ skipped => exact inductionHypothesis skipped

theorem ofText_marked (sigil : Sigil) {raw : List Char} (balanced : Balanced raw)
    (rest : List Char) :
    ofText (sigil.char :: '{' :: (raw ++ '}' :: rest)) = .marked sigil raw :: ofText rest := by
  have span : spanClose? ('{' :: (raw ++ '}' :: rest)) = some ('{' :: raw, rest) :=
    balanced.spanClose?_eq rfl rest
  rw [ofText, segmentsFrom, Sigil.ofText?_char]
  simp only [span, List.tail_cons, segmentsFrom_eq_drop]
  simp

theorem ofText_unclosed (sigil : Sigil) {rest : List Char}
    (unclosed : spanClose? ('{' :: rest) = none) :
    ofText (sigil.char :: '{' :: rest) = [.unclosed (sigil.char :: '{' :: rest)] := by
  rw [ofText, segmentsFrom, Sigil.ofText?_char]
  simp only [unclosed]

theorem ofText_guarded (sigil : Sigil) (rest : List Char) :
    ofText (backslash :: sigil.char :: '{' :: rest) = .guarded sigil :: ofText rest := by
  rw [ofText, segmentsFrom, Sigil.ofText?_backslash]
  simp only [BEq.rfl, ↓reduceIte, Sigil.ofText?_char, segmentsFrom_eq_drop]
  rfl

theorem ofText_plain {char : Char} {rest : List Char}
    (noMarker : Sigil.ofText? (char :: rest) = none)
    (noGuard : char = backslash → Sigil.ofText? rest = none) :
    ofText (char :: rest) = consChar char (ofText rest) := by
  have nothing : (if char == backslash then Sigil.ofText? rest else none) = none := by
    split
    next isBackslash => exact noGuard (eq_of_beq isBackslash)
    next => rfl
  rw [ofText, segmentsFrom, noMarker]
  simp only [nothing]
  rfl

/-- A text is empty or begins with a marker that is closed, with one that is not, with a
backslash in front of a marker, or with a character that has no part in a marker. -/
@[elab_as_elim]
theorem textInduction {motive : List Char → Prop} (nil : motive [])
    (marked : ∀ (sigil : Sigil) (raw rest : List Char), Balanced raw → motive rest →
      motive (sigil.char :: '{' :: (raw ++ '}' :: rest)))
    (unclosed : ∀ (sigil : Sigil) (rest : List Char), spanClose? ('{' :: rest) = none →
      motive (sigil.char :: '{' :: rest))
    (guarded : ∀ (sigil : Sigil) (rest : List Char), motive rest →
      motive (backslash :: sigil.char :: '{' :: rest))
    (plain : ∀ (char : Char) (rest : List Char), Sigil.ofText? (char :: rest) = none →
      (char = backslash → Sigil.ofText? rest = none) → motive rest → motive (char :: rest))
    (text : List Char) : motive text := by
  induction size : text.length using Nat.strongRecOn generalizing text with
  | ind size shorter =>
      subst size
      cases text with
      | nil => exact nil
      | cons char rest =>
          cases marker : Sigil.ofText? (char :: rest) with
          | some sigil =>
              obtain ⟨inside, same⟩ := Sigil.eq_of_ofText? marker
              cases same
              cases span : spanClose? ('{' :: inside) with
              | none => exact unclosed sigil inside span
              | some divided =>
                  obtain ⟨before, after⟩ := divided
                  obtain ⟨opener, raw, closer, pair, items, text, rfl⟩ :=
                    Fragment.spanClose?_eq_some_iff.mp span
                  cases text
                  cases pair
                  refine marked sigil raw after items.balanced (shorter after.length ?_ after rfl)
                  simp only [List.length_cons, List.length_append]
                  omega
          | none =>
              have later : motive rest := shorter rest.length (Nat.lt_succ_self _) rest rfl
              by_cases isBackslash : char = backslash
              · subst isBackslash
                cases following : Sigil.ofText? rest with
                | none => exact plain backslash rest marker (fun _ => following) later
                | some sigil =>
                    obtain ⟨others, rfl⟩ := Sigil.eq_of_ofText? following
                    refine guarded sigil others (shorter others.length ?_ others rfl)
                    simp only [List.length_cons]
                    omega
              · exact plain char rest marker (fun same => absurd same isBackslash) later

end Segment

end Template
