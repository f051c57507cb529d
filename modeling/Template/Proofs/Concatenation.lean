import Mathlib.Data.List.Chain
import Template.Proofs.Expressions

/-!
# Growing concatenations

Characters that are appended to a concatenation go into the literal it ends with, or
begin a new one (`Term.append_cases`).  It makes no difference whether they are appended
in one piece or in several (`Concatenation.appendText_appendText`), and a concatenation
that grows from nothing never gets an empty literal or two literals side by side.
-/

namespace Template

namespace Term

theorem append_cons (text : String) (term : Term) {rest : List Term} (nonempty : rest ≠ []) :
    append text (term :: rest) = term :: append text rest := by
  cases rest with
  | nil => exact absurd rfl nonempty
  | cons second rest =>
      cases term with
      | literal | expr => rfl

@[simp] theorem append_literal (text last : String) (front : List Term) :
    append text (front ++ [.literal last]) = front ++ [.literal (last ++ text)] := by
  induction front with
  | nil => rfl
  | cons term rest inductionHypothesis =>
      rw [List.cons_append, append_cons text term (by simp), inductionHypothesis,
        List.cons_append]

@[simp] theorem append_expr (text source : String) (front : List Term) :
    append text (front ++ [.expr source]) = front ++ [.expr source, .literal text] := by
  induction front with
  | nil => rfl
  | cons term rest inductionHypothesis =>
      rw [List.cons_append, append_cons text term (by simp), inductionHypothesis,
        List.cons_append]

/-- Appended characters extend the literal at the end, or become a literal of their own. -/
theorem append_cases (text : String) (terms : List Term) :
    (∃ front last, terms = front ++ [.literal last] ∧
      append text terms = front ++ [.literal (last ++ text)]) ∨
    (∀ last ∈ terms.getLast?, last.isExpr = true) ∧
      append text terms = terms ++ [.literal text] := by
  rcases List.eq_nil_or_concat' terms with rfl | ⟨front, last, rfl⟩
  · exact .inr ⟨by simp, rfl⟩
  · cases last with
    | literal last => exact .inl ⟨front, last, rfl, append_literal text last front⟩
    | expr source =>
        refine .inr ⟨?_, by simp⟩
        simp [isExpr]

theorem append_append (first second : String) (terms : List Term) :
    append second (append first terms) = append (first ++ second) terms := by
  rcases append_cases first terms with ⟨front, last, rfl, extended⟩ | ⟨noLiteral, added⟩
  · rw [extended, append_literal, append_literal, String.append_assoc]
  · rw [added, append_literal]
    rcases append_cases (first ++ second) terms with ⟨front, last, rfl, -⟩ | ⟨-, together⟩
    · exact absurd (noLiteral (.literal last) (by simp)) (by simp [isExpr])
    · rw [together]

end Term

namespace Concatenation

variable {concatenation : Concatenation}

@[simp] theorem appendText_empty (concatenation : Concatenation) :
    concatenation.appendText "" = concatenation := rfl

theorem appendText_of_ne {text : String} (nonempty : text ≠ "") (concatenation : Concatenation) :
    concatenation.appendText text =
      { concatenation with terms := Term.append text concatenation.terms } := by
  rw [appendText, if_neg (by simpa using nonempty)]

theorem appendText_appendText (first second : String) (concatenation : Concatenation) :
    (concatenation.appendText first).appendText second =
      concatenation.appendText (first ++ second) := by
  by_cases firstEmpty : first = ""
  · rw [firstEmpty, appendText_empty, String.empty_append]
  · by_cases secondEmpty : second = ""
    · rw [secondEmpty, appendText_empty, String.append_empty]
    · have together : first ++ second ≠ "" := by simp [firstEmpty]
      rw [appendText_of_ne firstEmpty, appendText_of_ne secondEmpty, appendText_of_ne together]
      simp only [Term.append_append]

@[simp] theorem coerced_appendText (text : String) (concatenation : Concatenation) :
    (concatenation.appendText text).coerced = concatenation.coerced := by
  unfold appendText
  split <;> rfl

@[simp] theorem coerced_appendExpr (source : String) (concatenation : Concatenation) :
    (concatenation.appendExpr source).coerced = concatenation.coerced := rfl

/-! ## The fragments in a concatenation -/

@[simp] theorem fragments_start : start.fragments = [] := rfl

@[simp] theorem fragments_appendExpr (source : String) (concatenation : Concatenation) :
    (concatenation.appendExpr source).fragments = concatenation.fragments ++ [source] := by
  simp [fragments, appendExpr, Term.fragments]

@[simp] theorem fragments_appendText (text : String) (concatenation : Concatenation) :
    (concatenation.appendText text).fragments = concatenation.fragments := by
  unfold appendText
  split
  · rfl
  · change (Term.append text concatenation.terms).flatMap Term.fragments = _
    rcases Term.append_cases text concatenation.terms with
      ⟨front, last, termsEq, extended⟩ | ⟨-, added⟩
    · rw [extended, fragments, termsEq]
      simp [Term.fragments]
    · rw [added]
      simp [fragments, Term.fragments]

/-! ## Normal concatenations -/

/-- A string whose literals say something each and are kept apart by expressions. -/
structure Normal (concatenation : Concatenation) : Prop where
  coerced : concatenation.coerced = true
  noEmptyLiteral : .literal "" ∉ concatenation.terms
  literalsApart : concatenation.terms.IsChain fun first second =>
    first.isExpr = true ∨ second.isExpr = true

theorem normal_start : start.Normal where
  coerced := rfl
  noEmptyLiteral := List.not_mem_nil
  literalsApart := List.IsChain.nil

theorem Normal.appendExpr (normal : concatenation.Normal) (source : String) :
    (concatenation.appendExpr source).Normal where
  coerced := normal.coerced
  noEmptyLiteral := by
    have before := normal.noEmptyLiteral
    simpa [Concatenation.appendExpr] using before
  literalsApart := by
    refine List.isChain_append.mpr ⟨normal.literalsApart, List.isChain_singleton _, ?_⟩
    simp [Term.isExpr]

theorem Normal.appendText (normal : concatenation.Normal) (text : String) :
    (concatenation.appendText text).Normal := by
  by_cases empty : text = ""
  · rw [empty, appendText_empty]
    exact normal
  · obtain ⟨coerced, noEmptyLiteral, literalsApart⟩ := normal
    rw [appendText_of_ne empty]
    rcases Term.append_cases text concatenation.terms with
      ⟨front, last, termsEq, extended⟩ | ⟨noLiteral, added⟩
    · rw [termsEq] at noEmptyLiteral literalsApart
      rw [extended]
      refine ⟨coerced, ?_, ?_⟩
      · simp_all
      · rw [List.isChain_append] at literalsApart ⊢
        refine ⟨literalsApart.1, List.isChain_singleton _, ?_⟩
        simpa [Term.isExpr] using literalsApart.2.2
    · rw [added]
      refine ⟨coerced, ?_, ?_⟩
      · simpa [Ne.symm empty] using noEmptyLiteral
      · refine List.isChain_append.mpr ⟨literalsApart, List.isChain_singleton _, ?_⟩
        intro term isLast _ _
        exact .inl (noLiteral term isLast)

end Concatenation

end Template
