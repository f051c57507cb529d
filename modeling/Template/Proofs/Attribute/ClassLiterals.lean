import Template.Proofs.Attribute.ClassName
import Template.Proofs.Double.Text

/-!
# Class names from literals

An element of a class list that is a literal is evaluated at compile time.  What is left of it is
the text that the program would make of its value (`Literal.Prints`), and null and blank texts
leave nothing.  Numbers beyond the range of a double do not either: they would print as an
infinity, but their value is handed on as JSON, which has none.
-/

namespace Template

open Template.Text

namespace Literal

variable {literal : Literal}

/-- The text that a program makes of a literal. -/
inductive Prints : Literal → String → Prop where
  | text {value : String} : Prints (.text value) value
  | number {value : Double} {text : String} (written : value.NumberText text) :
      Prints (.number value) text
  | true : Prints (.boolean true) "true"
  | false : Prints (.boolean false) "false"
  | null : Prints .null "null"

/-- A literal that adds nothing to a class name. -/
inductive LeavesNoClass : Literal → Prop where
  | null : LeavesNoClass .null
  | blank {value : String} (empty : trim value = "") : LeavesNoClass (.text value)
  | infinite {value : Double} (outside : value.isFinite = false) : LeavesNoClass (.number value)

/-- A literal that leaves a class is not blank, and its class is the text that it prints as. -/
theorem exists_class_of_not_leavesNoClass (leaves : ¬ literal.LeavesNoClass) :
    literal.isBlank = false ∧ ∃ name, literal.Prints name ∧ literal.value.classes = [name] := by
  cases literal with
  | text value =>
    have seen : strip value.toList ≠ [] := fun empty =>
      leaves (.blank (trim_eq_empty_iff.mpr empty))
    exact ⟨by simpa [isBlank] using seen, value, .text, classes_text seen⟩
  | number value =>
    have finite : value.isFinite = true := by
      by_contra outside
      exact leaves (.infinite (by simpa using outside))
    refine ⟨rfl, value.text, .number value.numberText_text, ?_⟩
    rw [Literal.value, if_pos finite]
    rfl
  | boolean value =>
    cases value with
    | true => exact ⟨rfl, "true", .true, rfl⟩
    | false => exact ⟨rfl, "false", .false, rfl⟩
  | null => exact absurd .null leaves

end Literal

namespace ClassTerm

variable {source : String} {literal : Literal}

theorem elementTerms_of_leavesNoClass (read : Literal.read? source = some literal)
    (nothing : literal.LeavesNoClass) : elementTerms source = [] := by
  cases nothing with
  | null => exact elementTerms_of_blank read rfl
  | blank empty =>
    rw [trim_eq_empty_iff] at empty
    exact elementTerms_of_blank read (by simp [Literal.isBlank, empty])
  | infinite outside =>
    rw [elementTerms_of_visible read rfl, Literal.value, if_neg (by simp [outside])]
    rfl

theorem exists_elementTerms_of_not_leavesNoClass (read : Literal.read? source = some literal)
    (leaves : ¬ literal.LeavesNoClass) :
    ∃ name, literal.Prints name ∧ elementTerms source = [.static name] := by
  obtain ⟨visible, name, prints, one⟩ := Literal.exists_class_of_not_leavesNoClass leaves
  refine ⟨name, prints, ?_⟩
  rw [elementTerms_of_visible read visible, one]
  simp [joined]

/-- A literal needs no helper. -/
theorem ofElement_run_literal (read : Literal.read? source = some literal) (preamble : Preamble) :
    (ofElement source).run preamble = (elementTerms source, preamble) := by
  rw [elementTerms, ofElement, read]
  simp only
  split
  · rfl
  · rfl

/-- A literal leaves nothing of a class element if it is null, a blank text or a number beyond the
range of a double.  Any other literal becomes one name that is known, the text that the program
would make of its value.  In neither case a helper is needed. -/
theorem ofElement_literal (source : String) (literal : Literal)
    (read : Literal.read? source = some literal) (preamble : Preamble) :
    (((ofElement source).run preamble).1 = [] ↔ literal.LeavesNoClass) ∧
    (¬ literal.LeavesNoClass →
      ∃ name, literal.Prints name ∧ ((ofElement source).run preamble).1 = [.static name]) ∧
    ((ofElement source).run preamble).2 = preamble := by
  rw [ofElement_run_literal read]
  refine ⟨⟨?_, elementTerms_of_leavesNoClass read⟩,
    exists_elementTerms_of_not_leavesNoClass read, rfl⟩
  intro nothing
  by_contra leaves
  obtain ⟨name, -, one⟩ := exists_elementTerms_of_not_leavesNoClass read leaves
  exact List.cons_ne_nil _ _ (one.symm.trans nothing)

theorem ofElement_literal_number :
    (Literal.number (Double.ofInt (-250))).Prints "-250" ∧
      ((ofElement " -2.50e2 ").run {}).1 = [.static "-250"] := by
  have read : Literal.read? " -2.50e2 " = some (.number (Double.ofInt (-250))) := by
    decide +kernel
  have finite : (Double.ofInt (-250)).isFinite = true := by decide +kernel
  have known : ((ofElement " -2.50e2 ").run {}).1 = [.static "-250"] := by decide +kernel
  have leaves : ¬ (Literal.number (Double.ofInt (-250))).LeavesNoClass := by
    intro nothing
    cases nothing with
    | infinite outside => exact Bool.noConfusion (finite.symm.trans outside)
  obtain ⟨name, prints, one⟩ := (ofElement_literal _ _ read {}).2.1 leaves
  rw [known] at one
  cases one
  exact ⟨prints, known⟩

/-- A number beyond the range of a double disappears, although it would print as an infinity. -/
theorem ofElement_literal_infinite :
    ∃ value, Literal.read? "1e999" = some (.number value) ∧
      (Literal.number value).Prints "Infinity" ∧ ((ofElement "1e999").run {}).1 = [] := by
  let infinity : Double := ⟨false, Double.infinite, le_rfl⟩
  have read : Literal.read? "1e999" = some (.number infinity) := by decide +kernel
  exact ⟨infinity, read, .number ⟨_, .infinity, rfl⟩, by decide +kernel⟩

end ClassTerm

end Template
