import Template.Proofs.Fragment.Elements
import Template.Proofs.Segment.Segmentation
import Template.Proofs.Segment.Shape

/-!
# Expressions taken out of a text

The braces of a marker and the brackets of an array enclose balanced text, and so do the
commas of the array.  What is taken out of them has the blanks around it dropped, and there
is one blank that matters: the line end that ends a comment.  Without it the comment is open
(`EndsInComment`), and a bracket printed behind the expression is a part of the comment.

The main statement says that this is the only way an expression that was taken out can fail
to be closed, and that a line end behind it would repair it.
-/

namespace Template.Fragment

open Template.Text

/-! ## Open comments -/

/-- A text that ends within a comment to the end of the line: items, two slashes and no line
end behind them. -/
def EndsInComment (text : List Char) : Prop :=
  ∃ items comment, Items items ∧ '\n' ∉ comment ∧ text = items ++ '/' :: '/' :: comment

namespace State

/-- A slash behind a character in code is read by itself, or it makes a comment together
with that character. -/
theorem read_before_slash {state : State} {char : Char}
    (success : (state.read char none).state? = some {}) :
    (state.read char (some '/')).state? = some {} ∨
      (state.read char (some '/')).state? = some { mode := .lineComment, held := true } := by
  obtain ⟨mode, stack, held⟩ := state
  cases held with
  | true => exact .inl success
  | false =>
      cases mode with
      | code =>
          by_cases slash : char = '/'
          · subst slash
            cases success
            exact .inr rfl
          · left
            simpa [read, readCode, slash] using success
      | quoted | lineComment => exact .inl success
      | template =>
          left
          simpa [read, readTemplate] using success
      | blockComment => simp [read, Reading.state?] at success

theorem run_before_slash {state : State} {text : List Char}
    (success : state.run none text = some {}) :
    state.run (some '/') text = some {} ∨
      state.run (some '/') text = some { mode := .lineComment, held := true } := by
  induction text generalizing state with
  | nil => exact .inl success
  | cons char rest inductionHypothesis =>
      cases rest with
      | nil =>
          rw [run_singleton] at success ⊢
          exact read_before_slash success
      | cons second rest =>
          rw [run, List.head?_cons, Option.some_or] at success ⊢
          obtain ⟨after, reading, later⟩ := Option.bind_eq_some_iff.mp success
          rw [reading]
          exact inductionHypothesis later

end State

variable {text core : List Char} {blank : Char}

theorem EndsInComment.run (inComment : EndsInComment text) (next : Option Char) :
    State.run next {} text = some { mode := .lineComment } := by
  obtain ⟨items, comment, isItems, oneLine, rfl⟩ := inComment
  have goesOn := State.run_inComment oneLine next []
  rw [State.run_append, List.head?_cons, Option.some_or]
  rcases State.run_before_slash isItems.balanced with separate | together
  · rw [separate]
    exact goesOn
  · rw [together]
    have slash : State.run next { mode := .lineComment } ('/' :: comment) =
        some { mode := .lineComment } := goesOn
    exact slash

theorem EndsInComment.not_balanced (inComment : EndsInComment text) : ¬ Balanced text := by
  intro balanced
  rw [Balanced, inComment.run] at balanced
  cases balanced

/-! ## Dropping blanks -/

/-- Items, but for a comment at the end that is open. -/
def ItemsOrComment (text : List Char) : Prop :=
  Items text ∨ EndsInComment text

/-- Only a plain character and a comment to the end of the line end with a blank. -/
theorem Item.concat_blank {next : Option Char} (item : Item next (core ++ [blank]))
    (blankEnd : isBlank blank = true) : core = [] ∨ EndsInComment core := by
  have noBlank (front : List Char) (last : Char) (visible : isBlank last = false) :
      core ++ [blank] ≠ front ++ [last] := by
    intro same
    rw [(List.append_singleton_inj.mp same).2, visible] at blankEnd
    cases blankEnd
  generalize whole : core ++ [blank] = text at item
  cases item with
  | @plain _ char meaningless =>
      have single : core ++ [blank] = [] ++ [char] := whole
      exact .inl (List.append_singleton_inj.mp single).1
  | @quoted _ mark text isMark inside =>
      refine absurd whole (noBlank (mark :: text) mark ?_)
      rcases List.mem_pair.mp isMark with rfl | rfl <;> rfl
  | @template _ text inside => exact absurd whole (noBlank (backtick :: text) backtick rfl)
  | @lineComment _ text inside =>
      have ended : core ++ [blank] = ('/' :: '/' :: text) ++ ['\n'] := whole
      exact .inr ⟨[], text, .nil, inside, (List.append_singleton_inj.mp ended).1⟩
  | @blockComment _ text inside =>
      refine absurd ?_ (noBlank ('/' :: '*' :: (text ++ ['*'])) '/' rfl)
      simp [whole]
  | @group _ opener closer text pair inside =>
      refine absurd whole (noBlank (opener :: text) closer ?_)
      rcases pair_cases pair with ⟨-, rfl⟩ | ⟨-, rfl⟩ | ⟨-, rfl⟩ <;> rfl

/-- A blank at the end of items may be dropped, unless it ends a comment. -/
theorem Items.concat_blank (blankEnd : isBlank blank = true) : {text : List Char} →
    Items text → {core : List Char} → text = core ++ [blank] → ItemsOrComment core
  | _, .nil, _, split => by simp at split
  | _, @Items.cons item rest first others, core, split => by
      rcases List.eq_nil_or_concat' rest with empty | ⟨front, last, restEq⟩
      · rw [empty, List.append_nil] at split
        rw [split] at first
        rcases first.concat_blank blankEnd with none | inComment
        · rw [none]
          exact .inl .nil
        · exact .inr inComment
      · rw [restEq, ← List.append_assoc] at split
        obtain ⟨coreEq, lastEq⟩ := List.append_singleton_inj.mp split
        rw [lastEq] at restEq
        rw [restEq] at first
        rw [← coreEq]
        rcases Items.concat_blank blankEnd others restEq with
          items | ⟨items, comment, isItems, oneLine, frontEq⟩
        · exact .inl (.cons first.before items)
        · rw [frontEq, List.append_assoc] at first
          refine .inr ⟨item ++ items, comment, .cons first.before isItems, oneLine, ?_⟩
          rw [frontEq, List.append_assoc]

theorem EndsInComment.of_concat (blankEnd : isBlank blank = true)
    (inComment : EndsInComment (core ++ [blank])) : EndsInComment core := by
  obtain ⟨items, comment, isItems, oneLine, split⟩ := inComment
  rcases List.eq_nil_or_concat' comment with rfl | ⟨front, last, rfl⟩
  · have slash : core ++ [blank] = (items ++ ['/']) ++ ['/'] := by simp [split]
    rw [(List.append_singleton_inj.mp slash).2] at blankEnd
    cases blankEnd
  · have longer : core ++ [blank] = (items ++ '/' :: '/' :: front) ++ [last] := by simp [split]
    refine ⟨items, front, isItems, ?_, (List.append_singleton_inj.mp longer).1⟩
    exact fun found => oneLine (List.mem_append_left _ found)

theorem ItemsOrComment.of_append {after : List Char}
    (blankAfter : ∀ char ∈ after, isBlank char = true)
    (itemsOrComment : ItemsOrComment (core ++ after)) : ItemsOrComment core := by
  induction after using List.reverseRecOn with
  | nil => simpa using itemsOrComment
  | append_singleton front last inductionHypothesis =>
      have blankLast : isBlank last = true := blankAfter last (by simp)
      apply inductionHypothesis fun char membership => blankAfter char (by simp [membership])
      rw [← List.append_assoc] at itemsOrComment
      rcases itemsOrComment with items | inComment
      · exact items.concat_blank blankLast rfl
      · exact .inr (inComment.of_concat blankLast)

theorem Balanced.of_append {before : List Char}
    (blankBefore : ∀ char ∈ before, isBlank char = true) (balanced : Balanced (before ++ text)) :
    Balanced text := by
  induction before with
  | nil => exact balanced
  | cons char before inductionHypothesis =>
      rw [List.forall_mem_cons] at blankBefore
      apply inductionHypothesis blankBefore.2
      rw [Balanced, List.cons_append, State.run,
        State.read_plain (not_mem_specials_of_isBlank blankBefore.1)] at balanced
      exact balanced

/-- Without the blanks around it balanced text is balanced but for an open comment. -/
theorem Balanced.itemsOrComment_strip {raw : List Char} (balanced : Balanced raw) :
    ItemsOrComment (strip raw) := by
  obtain ⟨before, after, blankBefore, blankAfter, split⟩ := exists_eq_append_strip raw
  rw [split] at balanced
  have items : Items (strip raw ++ after) :=
    balanced_iff_items.mp (balanced.of_append blankBefore)
  exact ItemsOrComment.of_append blankAfter (.inl items)

/-! ## Closed sources -/

variable {source : String}

theorem ItemsOrComment.closed_iff (itemsOrComment : ItemsOrComment source.toList) :
    Closed source ↔ ¬ EndsInComment source.toList := by
  rw [closed_iff_balanced]
  constructor
  · intro balanced inComment
    exact inComment.not_balanced balanced
  · intro noComment
    rcases itemsOrComment with items | inComment
    · exact items.balanced
    · exact absurd inComment noComment

theorem ItemsOrComment.closed_lineEnd (itemsOrComment : ItemsOrComment source.toList) :
    Closed (source ++ "\n") := by
  rw [closed_iff_balanced, String.toList_append, Balanced, State.run_append]
  rcases itemsOrComment with items | inComment
  · rw [items.balanced.run rfl []]
    rfl
  · rw [inComment.run]
    rfl

/-- The source of a marker in a text. -/
theorem itemsOrComment_of_marks {text : String}
    (marks : Segment.Marks (Segment.ofText text.toList) source) :
    ItemsOrComment source.toList := by
  obtain ⟨sigil, raw, membership, -, rfl⟩ := marks
  have sound := (Segment.divides_ofText text.toList).sound (.marked sigil raw) membership
  rw [String.toList_ofList]
  exact (Segment.sound_marked_iff.mp sound).itemsOrComment_strip

/-- An element of an array. -/
theorem itemsOrComment_of_arrayElements {elements : List String} {element : String}
    (found : arrayElements? source = some elements) (membership : element ∈ elements) :
    ItemsOrComment element.toList := by
  obtain ⟨inside, balanced, bracketed⟩ := exists_balanced_of_arrayElements? found
  rw [arrayElements?_of_balanced balanced bracketed] at found
  obtain ⟨parts, foundParts, rfl⟩ := Option.map_eq_some_iff.mp found
  obtain ⟨part, partMembership, rfl⟩ := exists_part_of_mem_elementsOf membership
  have partBalanced : Balanced part :=
    balanced.of_mem_partsFrom (by decide) foundParts part partMembership
  rw [String.toList_ofList]
  exact partBalanced.itemsOrComment_strip

/-- An expression that is taken out of a text or an array is closed unless it ends in an open
comment, and a line end would close that. -/
theorem closed_extracted_iff (text : String) :
    (∀ sentinel ∈ Segment.sentinelsOfText text, ∀ source ∈ (Stmt.sentinel sentinel).fragments,
      (Closed source ↔ ¬ EndsInComment source.toList) ∧ Closed (source ++ "\n")) ∧
    ∀ elements, arrayElements? text = some elements → ∀ element ∈ elements,
      (Closed element ↔ ¬ EndsInComment element.toList) ∧ Closed (element ++ "\n") := by
  constructor
  · intro sentinel put source occurs
    have extracted := itemsOrComment_of_marks (Segment.marks_of_mem put occurs)
    exact ⟨extracted.closed_iff, extracted.closed_lineEnd⟩
  · intro elements found element membership
    have extracted := itemsOrComment_of_arrayElements found membership
    exact ⟨extracted.closed_iff, extracted.closed_lineEnd⟩

/-- An expression with a comment to the end of the line is not closed without the line end,
and neither is the concatenation or the class that is printed with it. -/
theorem closed_extracted_iff_trailingComment :
    Segment.sentinelsOfText "#\x7ba // b\n\x7d" =
        [.text { terms := [.expr "a // b"], coerced := true }] ∧
      arrayElements? "[a // b\n]" = some ["a // b"] ∧
      ¬ Closed "a // b" ∧ EndsInComment "a // b".toList ∧
      ¬ Closed (Concatenation.render { terms := [.expr "a // b"], coerced := true }) ∧
      ¬ Closed (ClassTerm.render (.dynamic "a // b")) := by
  have items : Items ['a', ' '] := balanced_iff_items.mp rfl
  refine ⟨rfl, by decide +kernel, by decide +kernel, ?_, by decide +kernel, by decide +kernel⟩
  exact ⟨['a', ' '], [' ', 'b'], items, by decide, rfl⟩

end Template.Fragment
