import Mathlib.Data.List.DropRight
import Template.Text.Blank

/-!
# Texts without the blanks around them

A text is its stripped form between blanks, and nothing else is dropped: the stripped
form begins and ends with characters that are no blanks, so stripping it again changes
nothing.
-/

namespace Template.Text

theorem stripEnd_eq_rdropWhile (text : List Char) : stripEnd text = text.rdropWhile isBlank := rfl

theorem strip_eq_nil_iff {text : List Char} :
    strip text = [] ↔ text.all isBlank = true := by
  rw [strip, stripEnd_eq_rdropWhile, List.rdropWhile_eq_nil_iff, stripStart, List.all_eq_true]
  constructor
  · intro inner char membership
    rw [← List.takeWhile_append_dropWhile (p := isBlank) (l := text), List.mem_append] at membership
    rcases membership with taken | dropped
    · exact List.mem_takeWhile_imp taken
    · exact inner char dropped
  · intro blank char membership
    exact blank char ((List.dropWhile_sublist isBlank).mem membership)

theorem trim_eq_empty_iff {text : String} : trim text = "" ↔ strip text.toList = [] := by
  rw [trim, ← String.toList_inj, String.toList_ofList]
  rfl

theorem strip_ne_nil_of_mem {text : List Char} {char : Char} (membership : char ∈ text)
    (visible : isBlank char = false) : strip text ≠ [] := by
  intro empty
  have blank := List.all_eq_true.mp (strip_eq_nil_iff.mp empty) char membership
  rw [visible] at blank
  cases blank

/-- A text is its stripped form with blanks on both sides. -/
theorem exists_eq_append_strip (text : List Char) :
    ∃ before after, (∀ char ∈ before, isBlank char = true) ∧
      (∀ char ∈ after, isBlank char = true) ∧ text = before ++ (strip text ++ after) := by
  refine ⟨text.takeWhile isBlank, (stripStart text).rtakeWhile isBlank, ?_, ?_, ?_⟩
  · intro char membership
    exact List.mem_takeWhile_imp membership
  · intro char membership
    exact List.mem_rtakeWhile_imp membership
  · rw [strip, stripEnd_eq_rdropWhile, List.rdropWhile_append_rtakeWhile, stripStart,
      List.takeWhile_append_dropWhile]

/-- Dropping blanks at the end does not bring one to the front. -/
theorem stripStart_stripEnd {text : List Char} (stripped : stripStart text = text) :
    stripStart (stripEnd text) = stripEnd text := by
  obtain ⟨after, split⟩ := List.rdropWhile_prefix isBlank text
  change stripEnd text ++ after = text at split
  cases front : stripEnd text with
  | nil => rfl
  | cons char rest =>
      rw [front, List.cons_append] at split
      rw [← split] at stripped
      have visible : ¬ isBlank char = true :=
        List.dropWhile_eq_self_iff.mp stripped (Nat.zero_lt_succ _)
      exact List.dropWhile_cons_of_neg visible

@[simp] theorem strip_strip (text : List Char) : strip (strip text) = strip text := by
  have startStripped : stripStart (stripStart text) = stripStart text :=
    List.dropWhile_idempotent isBlank text
  rw [strip, strip, stripStart_stripEnd startStripped]
  exact List.rdropWhile_idempotent isBlank (stripStart text)

theorem strip_blanks_append {blanks : List Char} (blank : ∀ char ∈ blanks, isBlank char = true)
    (text : List Char) : strip (blanks ++ text) = strip text := by
  rw [strip, strip, stripStart, stripStart, List.dropWhile_append_of_pos blank]

theorem stripEnd_append_blanks {blanks : List Char}
    (blank : ∀ char ∈ blanks, isBlank char = true) (text : List Char) :
    stripEnd (text ++ blanks) = stripEnd text := by
  have blankReverse : ∀ char ∈ blanks.reverse, isBlank char = true := by simpa using blank
  rw [stripEnd, stripEnd, List.reverse_append, List.dropWhile_append_of_pos blankReverse]

theorem strip_append_blanks {blanks : List Char} (blank : ∀ char ∈ blanks, isBlank char = true)
    (text : List Char) : strip (text ++ blanks) = strip text := by
  rw [strip, strip, stripStart, stripStart, List.dropWhile_append]
  split
  next allBlank =>
    rw [List.isEmpty_iff.mp allBlank, List.dropWhile_eq_nil_iff.mpr blank]
  next => exact stripEnd_append_blanks blank _

/-- A text between two characters that are no blanks keeps its blanks. -/
theorem strip_between {first last : Char} (firstVisible : isBlank first = false)
    (lastVisible : isBlank last = false) (inside : List Char) :
    strip (first :: (inside ++ [last])) = first :: (inside ++ [last]) := by
  have start : stripStart (first :: (inside ++ [last])) = first :: (inside ++ [last]) :=
    List.dropWhile_cons_of_neg (by simp [firstVisible])
  rw [strip, start, stripEnd_eq_rdropWhile, ← List.cons_append]
  exact List.rdropWhile_concat_neg isBlank _ last (by simp [lastVisible])

theorem stripStart_of_visible {text : List Char} (visible : ∀ char ∈ text, isBlank char = false) :
    stripStart text = text := by
  cases text with
  | nil => rfl
  | cons first rest =>
      exact List.dropWhile_cons_of_neg (by simp [visible first List.mem_cons_self])

/-- A text without blanks is kept as it is. -/
theorem strip_of_visible {text : List Char} (visible : ∀ char ∈ text, isBlank char = false) :
    strip text = text := by
  have backwards : stripStart text.reverse = text.reverse :=
    stripStart_of_visible fun char within => visible char (List.mem_reverse.mp within)
  rw [stripStart] at backwards
  rw [strip, stripStart_of_visible visible, stripEnd, backwards, List.reverse_reverse]

theorem isBlank_of_isDigit {char : Char} (digit : char.isDigit = true) : isBlank char = false := by
  have bounds : 48 ≤ char.toNat ∧ char.toNat ≤ 57 := by
    simpa [Char.isDigit, UInt32.le_iff_toNat_le] using digit
  simp only [isBlank, Bool.or_eq_false_iff, Bool.and_eq_false_iff, decide_eq_false_iff_not,
    beq_eq_false_iff_ne]
  omega

/-- A text that says something and has no blanks around it. -/
def IsTrimmed (text : String) : Prop :=
  text ≠ "" ∧ trim text = text

instance (text : String) : Decidable (IsTrimmed text) :=
  inferInstanceAs (Decidable (_ ∧ _))

theorem isTrimmed_strip {text : List Char} (visible : strip text ≠ []) :
    IsTrimmed (String.ofList (strip text)) := by
  constructor
  · intro empty
    rw [← String.toList_inj, String.toList_ofList] at empty
    exact visible empty
  · rw [trim, String.toList_ofList, strip_strip]

end Template.Text
