import Template.Proofs.Attribute.Object
import Template.Proofs.Text.Trimming

/-!
# Class names at compile time and at run time

The class name of an object is put together when the program runs: names that are known are
there already, the values of the other elements are joined first, and spaces come in between.
The main statement says that this is the same as to join the values of all elements at once.

The difference is in the spaces.  Joining at once puts one between two classes, and an
element may stand for none, one or several classes.  Both ways agree as long as an element
leaves a term exactly if it stands for a class (`map_value_elementTerms`).
-/

namespace Template

open Template.Text

/-! ## Classes of literals -/

namespace Double

theorem strip_positional_ne_nil {digits : List Char}
    (areDigits : ∀ char ∈ digits, char.isDigit = true) (point : Int) :
    strip (positional digits point) ≠ [] := by
  unfold positional
  split
  next => exact strip_ne_nil_of_mem List.mem_cons_self rfl
  next positive =>
    split
    next =>
      cases digits with
      | nil =>
          have zero : '0' ∈ List.replicate point.toNat '0' :=
            List.mem_replicate.mpr ⟨by omega, rfl⟩
          exact strip_ne_nil_of_mem zero rfl
      | cons digit digits =>
          exact strip_ne_nil_of_mem List.mem_cons_self
            (isBlank_of_isDigit (areDigits digit List.mem_cons_self))
    next => exact strip_ne_nil_of_mem (List.mem_append_right _ List.mem_cons_self) rfl

theorem strip_scientific_ne_nil (digits : List Char) (power : Int) :
    strip (scientific digits power) ≠ [] :=
  strip_ne_nil_of_mem (List.mem_append_right _ List.mem_cons_self) rfl

theorem isDigit_of_mem_dropZeros {decimal : Decimal} :
    ∀ char ∈ dropZeros decimal.digits, char.isDigit = true := by
  intro char membership
  rw [dropZeros, List.mem_reverse] at membership
  have digit : char ∈ decimal.digits :=
    List.mem_reverse.mp ((List.dropWhile_sublist _).mem membership)
  exact Nat.isDigit_of_mem_toDigits (by decide) (by decide) digit

theorem strip_decimalText_ne_nil (decimal : Decimal) : strip (decimalText decimal) ≠ [] := by
  simp only [decimalText]
  split
  · exact strip_positional_ne_nil isDigit_of_mem_dropZeros _
  · exact strip_scientific_ne_nil _ _

/-- The text of a number can be seen. -/
theorem strip_text_ne_nil (number : Double) : strip number.text.toList ≠ [] := by
  simp only [text, String.toList_ofList]
  split
  · exact strip_ne_nil_of_mem List.mem_cons_self rfl
  · split
    · decide
    · split
      · decide
      · exact strip_decimalText_ne_nil _

end Double

theorem Literal.classes_text {value : String} (seen : strip value.toList ≠ []) :
    (Literal.text value).value.classes = [value] := by
  have nonempty : value.isEmpty = false := by
    rw [Bool.eq_false_iff]
    intro empty
    rw [String.isEmpty_iff.mp empty] at seen
    exact seen rfl
  simp [Literal.value, Json.classes, Json.isNoClass, Json.items?, Json.text, nonempty]

/-- A literal that is not blank stands for no class or for one that can be seen. -/
theorem Literal.classes_value {literal : Literal} (visible : literal.isBlank = false) :
    literal.value.classes = [] ∨
      ∃ name, literal.value.classes = [name] ∧ strip name.toList ≠ [] := by
  cases literal with
  | text value =>
      have seen : strip value.toList ≠ [] := by simpa [isBlank] using visible
      exact .inr ⟨value, classes_text seen, seen⟩
  | number value =>
      rw [Literal.value]
      split
      · exact .inr ⟨value.text, rfl, value.strip_text_ne_nil⟩
      · exact .inl rfl
  | boolean value =>
      cases value with
      | true => exact .inr ⟨"true", rfl, by decide⟩
      | false => exact .inr ⟨"false", rfl, by decide⟩
  | null => cases visible

namespace ClassTerm

/-- What a term adds to a class name: the name that is known, or the classes of the value of
its source. -/
def value (assignment : String → Json) : ClassTerm → String
  | .static name => name
  | .dynamic source => Json.joinClasses [assignment source]

/-- The value of an element of a class list.  A blank literal is left out. -/
def elementValue? (assignment : String → Json) (source : String) : Option Json :=
  match Literal.read? source with
  | some literal => if literal.isBlank then none else some literal.value
  | none => some (assignment (trim source))

/-- Classes as one text, if there are any. -/
def joined (classes : List String) : List String :=
  if classes.isEmpty then [] else [" ".intercalate classes]

/-- Joining classes group by group is joining them all. -/
theorem intercalate_joined (groups : List (List String)) :
    " ".intercalate (groups.flatMap joined) = " ".intercalate groups.flatten := by
  have joined_eq_nil_iff (groups : List (List String)) :
      groups.flatMap joined = [] ↔ groups.flatten = [] := by
    simp [joined]
  induction groups with
  | nil => rfl
  | cons group groups inductionHypothesis =>
      rw [List.flatMap_cons, List.flatten_cons]
      cases group with
      | nil => exact inductionHypothesis
      | cons first others =>
          -- A space follows the group exactly if a later group has a class.
          by_cases nothing : groups.flatten = []
          · rw [nothing, (joined_eq_nil_iff groups).mpr nothing, List.append_nil, List.append_nil]
            simp [joined]
          · have something := mt (joined_eq_nil_iff groups).mp nothing
            rw [String.intercalate_append_of_ne_nil (by simp [joined]) something,
              String.intercalate_append_of_ne_nil (by simp) nothing, inductionHypothesis]
            simp [joined]

theorem elementTerms_of_none {source : String} (noLiteral : Literal.read? source = none) :
    elementTerms source = [.dynamic (trim source)] := by
  rw [elementTerms, ofElement, noLiteral]
  rfl

theorem elementTerms_of_blank {source : String} {literal : Literal}
    (read : Literal.read? source = some literal) (blank : literal.isBlank = true) :
    elementTerms source = [] := by
  simp only [elementTerms, ofElement, read, blank, ↓reduceIte]
  rfl

/-- A literal leaves its class as a name that is known. -/
theorem elementTerms_of_visible {source : String} {literal : Literal}
    (read : Literal.read? source = some literal) (visible : literal.isBlank = false) :
    elementTerms source = (joined literal.value.classes).map .static := by
  simp only [elementTerms, ofElement, read, visible, Bool.false_eq_true, ↓reduceIte]
  rcases Literal.classes_value visible with none | ⟨name, one, seen⟩
  · have nothing : Json.joinClasses [literal.value] = "" := by simp [Json.joinClasses, none]
    rw [nothing, none]
    rfl
  · have alone : Json.joinClasses [literal.value] = name := by simp [Json.joinClasses, one]
    rw [alone, one, if_neg (by simpa using seen)]
    have joinedName : joined [name] = [name] := by simp [joined]
    rw [joinedName]
    rfl

/-- An element leaves a term exactly if it stands for a class. -/
theorem map_value_elementTerms {assignment : String → Json} {source : String}
    (nonempty : Literal.read? source = none → Json.joinClasses [assignment (trim source)] ≠ "") :
    (elementTerms source).map (value assignment) =
      joined ((elementValue? assignment source).toList.flatMap Json.classes) := by
  cases read : Literal.read? source with
  | none =>
      have classes : (assignment (trim source)).classes ≠ [] := by
        intro none
        apply nonempty read
        simp [Json.joinClasses, none]
      simp [elementTerms_of_none read, elementValue?, read, value, joined, classes,
        Json.joinClasses]
  | some literal =>
      cases blank : literal.isBlank with
      | true =>
          rw [elementTerms_of_blank read blank]
          simp [elementValue?, read, blank, joined]
      | false =>
          rw [elementTerms_of_visible read blank, List.map_map]
          have known : value assignment ∘ ClassTerm.static = id := rfl
          simp [elementValue?, read, blank, known]

end ClassTerm

/-! ## The class name of an object -/

namespace ObjectLiteral

/-- The terms of a property that holds a class name. -/
def classTermsOf? (property : String × PropertyValue) : Option (List ClassTerm) :=
  match property.2 with
  | .classes terms => if property.1 = Attributes.classProperty then some terms else none
  | .source _ => none

/-- The terms of the property that holds the class name. -/
def classTerms? (object : ObjectLiteral) : Option (List ClassTerm) :=
  object.props.findSome? classTermsOf?

/-- The class name of an object, when the sources of its terms have the given values. -/
def className (assignment : String → Json) (object : ObjectLiteral) : String :=
  " ".intercalate ((object.classTerms?.getD []).map (ClassTerm.value assignment))

end ObjectLiteral

namespace Attributes

theorem classTerms?_objectOf (attributes : List Attribute) (preamble : Preamble) :
    ((objectOf attributes).run preamble).1.classTerms?.getD [] = classTerms attributes := by
  have none : (attributes.filterMap property?).findSome? ObjectLiteral.classTermsOf? = none := by
    rw [List.findSome?_eq_none_iff]
    intro property membership
    obtain ⟨given, -, found⟩ := List.mem_filterMap.mp membership
    rw [ObjectLiteral.classTermsOf?, value_of_property? found]
  rw [ObjectLiteral.classTerms?, props_objectOf, List.findSome?_append, none, Option.none_or]
  cases classTerms attributes with
  | nil => rfl
  | cons => rfl

/-- The class name of an object is what all class elements give when their values are joined
at once, if each value that is not known leaves a class. -/
theorem className_objectOf (attributes : List Attribute) (preamble : Preamble)
    (assignment : String → Json)
    (nonempty : ∀ source ∈ classElements attributes, Literal.read? source = none →
      Json.joinClasses [assignment (trim source)] ≠ "") :
    ((objectOf attributes).run preamble).1.className assignment =
      Json.joinClasses
        ((classElements attributes).filterMap (ClassTerm.elementValue? assignment)) := by
  let classesOf (source : String) : List String :=
    (ClassTerm.elementValue? assignment source).toList.flatMap Json.classes
  have termValues : (classTerms attributes).map (ClassTerm.value assignment) =
      (classElements attributes).flatMap fun source => ClassTerm.joined (classesOf source) := by
    rw [classTerms, List.map_flatMap]
    exact List.flatMap_congr fun source membership =>
      ClassTerm.map_value_elementTerms (nonempty source membership)
  calc
    ((objectOf attributes).run preamble).1.className assignment
      = " ".intercalate ((classTerms attributes).map (ClassTerm.value assignment)) := by
        rw [ObjectLiteral.className, classTerms?_objectOf]
    _ = " ".intercalate (((classElements attributes).map classesOf).flatMap ClassTerm.joined) := by
        rw [termValues, List.flatMap_map]
    _ = " ".intercalate ((classElements attributes).flatMap classesOf) := by
        rw [ClassTerm.intercalate_joined, List.flatMap_def]
    _ = Json.joinClasses
          ((classElements attributes).filterMap (ClassTerm.elementValue? assignment)) := by
        rw [Json.joinClasses, List.filterMap_eq_flatMap_toList, List.flatMap_assoc]

/-- Class elements of every kind: known and unknown, blank, infinite, and in an array. -/
def scatteredClasses : List Attribute :=
  [{ name := "class", value := .source "[x, ' a', '', 1e999, -2.50]" },
    { name := "id", value := .source "'i'" }, { name := "className", value := .source " y " },
    { name := "class", value := .source "null" }]

/-- An array with a hole, and an object that is like an array. -/
def scatteredValues (source : String) : Json :=
  if source = "x" then .array [.string "p", .null, .string "q"]
  else .object [("length", .integer 3), ("0", .string "s"), ("2", .boolean true)]

theorem className_objectOf_scattered :
    (∀ source ∈ classElements scatteredClasses, Literal.read? source = none →
      Json.joinClasses [scatteredValues (trim source)] ≠ "") ∧
    ((objectOf scatteredClasses).run {}).1.className scatteredValues = "p q  a -2.5 s true" := by
  have nonempty : ∀ source ∈ classElements scatteredClasses, Literal.read? source = none →
      Json.joinClasses [scatteredValues (trim source)] ≠ "" := by
    decide +kernel
  refine ⟨nonempty, ?_⟩
  rw [className_objectOf scatteredClasses {} scatteredValues nonempty]
  decide +kernel

end Attributes

end Template
