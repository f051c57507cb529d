import Template.Proofs.Attribute.Key
import Template.Proofs.Uses

/-!
# The object of attributes

The object literal of attributes does not depend on the helpers that were noted before, so
it can be said without them: a property for each attribute that is not a class attribute,
and behind these one property for the terms of all class elements (`props_objectOf`).

An object should have one slot for the class name.  It has, unless the name of an attribute
loses its hyphens to `className`: such an attribute is no class attribute, but its property
has the same key.
-/

namespace Template

namespace ClassTerm

/-- The terms of an element without the helpers they need. -/
def elementTerms (source : String) : List ClassTerm :=
  ((ofElement source).run {}).1

theorem ofElement_run (source : String) (preamble : Preamble) :
    ((ofElement source).run preamble).1 = elementTerms source := by
  obtain ⟨terms, termsEq⟩ := ofElement_eq_noting source
  rw [elementTerms, termsEq]
  rfl

theorem ofElements_run (sources : List String) (preamble : Preamble) :
    ((ofElements sources).run preamble).1 = sources.flatMap elementTerms := by
  induction sources generalizing preamble with
  | nil => rfl
  | cons source rest inductionHypothesis =>
      rw [List.flatMap_cons, ← ofElement_run source preamble,
        ← inductionHypothesis ((ofElement source).run preamble).2]
      rfl

/-- The elements of a class attribute: those of an array literal one by one, and any other
source as a whole. -/
def elements (source : String) : List String :=
  (Fragment.arrayElements? source).getD [source]

theorem ofSource_run (source : String) (preamble : Preamble) :
    ((ofSource source).run preamble).1 = (elements source).flatMap elementTerms := by
  unfold ofSource elements
  cases Fragment.arrayElements? source with
  | none =>
      rw [Option.getD_none, List.flatMap_singleton]
      exact ofElement_run source preamble
  | some sources => exact ofElements_run sources preamble

end ClassTerm

namespace Attributes

/-- The elements of all class attributes, in order. -/
def classElements (attributes : List Attribute) : List String :=
  attributes.flatMap fun given =>
    if given.name = "class" ∨ given.name = "className" then
      ClassTerm.elements given.value.text
    else []

/-- The terms of all class attributes, in order. -/
def classTerms (attributes : List Attribute) : List ClassTerm :=
  (classElements attributes).flatMap ClassTerm.elementTerms

/-- The property of an attribute that is no class attribute. -/
def property? (given : Attribute) : Option (String × PropertyValue) :=
  match AttributeKey.ofName given.name with
  | .classes => none
  | .data key =>
      if isNullSource given.value.text then none else some (key, .source given.value.text)
  | .plain key => some (key, .source given.value.text)

theorem value_of_property? {given : Attribute} {property : String × PropertyValue}
    (found : property? given = some property) : property.2 = .source given.value.text := by
  unfold property? at found
  split at found
  next => cases found
  next =>
    simp only [Option.ite_none_left_eq_some, Option.some.injEq] at found
    rw [← found.2]
  next =>
    rw [← Option.some.inj found]

theorem classTerms_cons (first : Attribute) (rest : List Attribute) :
    classTerms (first :: rest) =
      (if AttributeKey.ofName first.name = .classes then
        (ClassTerm.elements first.value.text).flatMap ClassTerm.elementTerms else []) ++
      classTerms rest := by
  simp only [classTerms, classElements, List.flatMap_cons, List.flatMap_append,
    AttributeKey.ofName_eq_classes_iff]
  split
  · rfl
  · rfl

theorem entries_run (attributes : List Attribute) (preamble : Preamble) :
    ((entries attributes).run preamble).1 =
      (attributes.filterMap property?, classTerms attributes) := by
  induction attributes generalizing preamble with
  | nil => rfl
  | cons first rest inductionHypothesis =>
      have props (noted : Preamble) :
          ((entries rest).run noted).1.1 = rest.filterMap property? := by
        rw [inductionHypothesis]
      have terms (noted : Preamble) : ((entries rest).run noted).1.2 = classTerms rest := by
        rw [inductionHypothesis]
      rw [entries, List.filterMap_cons, property?, classTerms_cons]
      cases AttributeKey.ofName first.name with
      | classes =>
          let noted := ((ClassTerm.ofSource first.value.text).run preamble).2
          rw [if_pos rfl, ← ClassTerm.ofSource_run first.value.text preamble, ← props noted,
            ← terms noted]
          rfl
      | data name =>
          rw [← props preamble, ← terms preamble]
          cases isNullSource first.value.text with
          | true | false => rfl
      | plain name =>
          rw [← props preamble, ← terms preamble]
          rfl

/-- The property for the class name, if there are terms. -/
def classEntry (terms : List ClassTerm) : List (String × PropertyValue) :=
  if terms.isEmpty then [] else [(classProperty, .classes terms)]

/-- An object has the properties of the other attributes first and the class name last. -/
theorem props_objectOf (attributes : List Attribute) (preamble : Preamble) :
    ((objectOf attributes).run preamble).1.props =
      attributes.filterMap property? ++ classEntry (classTerms attributes) := by
  have entriesEq := entries_run attributes preamble
  have props : ((objectOf attributes).run preamble).1.props =
      let found := ((entries attributes).run preamble).1
      if found.2.isEmpty then found.1 else found.1 ++ [(classProperty, .classes found.2)] := rfl
  rw [props, entriesEq, classEntry]
  cases classTerms attributes with
  | nil => simp
  | cons => simp

end Attributes

/-! ## The slot of the class name -/

open Attributes (classProperty)

/-- At most one property holds a class name.  It is the last one, and its value is a list of
terms. -/
structure ObjectLiteral.OneClassSlot (object : ObjectLiteral) : Prop where
  atMostOne : (object.props.filter fun property => property.1 == classProperty).length ≤ 1
  last : ∀ property ∈ object.props.dropLast, property.1 ≠ classProperty
  isClasses : ∀ property ∈ object.props, property.1 = classProperty →
    ∃ terms, property.2 = .classes terms

namespace Attributes

/-- Only an attribute that respells the key of the class name has a property with this
key. -/
theorem property?_eq_className_iff {given : Attribute} {value : PropertyValue} :
    property? given = some (classProperty, value) ↔
      AttributeKey.Respells classProperty given.name.toList ∧
        value = .source given.value.text := by
  constructor
  · intro found
    unfold property? at found
    cases key : AttributeKey.ofName given.name with
    | classes => simp [key] at found
    | data name =>
        obtain ⟨rfl, isData⟩ := AttributeKey.ofName_eq_data key
        rw [key] at found
        simp only [Option.ite_none_left_eq_some, Option.some.injEq, Prod.mk.injEq] at found
        rw [found.2.1] at isData
        exact absurd isData (by decide)
    | plain name =>
        rw [key] at found
        simp only [Option.some.injEq, Prod.mk.injEq] at found
        obtain ⟨rfl, rfl⟩ := found
        exact ⟨.of_unstable key (by decide), rfl⟩
  · rintro ⟨respells, rfl⟩
    rw [property?, AttributeKey.ofName_of_respells respells]

/-- The class name has a slot of its own behind properties with other keys. -/
theorem oneClassSlot_append {props : List (String × PropertyValue)} (terms : List ClassTerm)
    (others : ∀ property ∈ props, property.1 ≠ classProperty) :
    ObjectLiteral.OneClassSlot { props := props ++ classEntry terms } where
  atMostOne := by
    have noOther : props.filter (fun property => property.1 == classProperty) = [] := by
      simpa using others
    rw [List.filter_append, noOther, List.nil_append]
    cases terms with
    | nil => exact Nat.zero_le 1
    | cons => exact Nat.le_refl 1
  last := by
    cases terms with
    | nil =>
        have nothing : props ++ classEntry [] = props := List.append_nil props
        rw [nothing]
        exact fun property membership => others property (List.dropLast_subset props membership)
    | cons term terms =>
        have concat : (props ++ classEntry (term :: terms)).dropLast = props := List.dropLast_concat
        rw [concat]
        exact others
  isClasses := by
    intro property membership isClassName
    rcases List.mem_append.mp membership with other | own
    · exact absurd isClassName (others property other)
    · cases terms with
      | nil => cases own
      | cons term terms =>
          rw [List.mem_singleton.mp own]
          exact ⟨term :: terms, rfl⟩

/-- There is one slot for the class name exactly if no attribute respells its key. -/
theorem oneClassSlot_objectOf_iff (attributes : List Attribute) (preamble : Preamble) :
    ((objectOf attributes).run preamble).1.OneClassSlot ↔
      ∀ given ∈ attributes, ¬ AttributeKey.Respells classProperty given.name.toList := by
  have props := props_objectOf attributes preamble
  constructor
  · intro slot given membership respells
    have found : property? given = some (classProperty, .source given.value.text) :=
      property?_eq_className_iff.mpr ⟨respells, rfl⟩
    have property : (classProperty, .source given.value.text) ∈
        ((objectOf attributes).run preamble).1.props := by
      rw [props]
      exact List.mem_append_left _ (List.mem_filterMap.mpr ⟨given, membership, found⟩)
    obtain ⟨terms, impossible⟩ := slot.isClasses _ property rfl
    cases impossible
  · intro free
    have others : ∀ property ∈ attributes.filterMap property?, property.1 ≠ classProperty := by
      rintro ⟨key, value⟩ membership rfl
      obtain ⟨given, givenMembership, found⟩ := List.mem_filterMap.mp membership
      exact free given givenMembership (property?_eq_className_iff.mp found).1
    have slot := oneClassSlot_append (classTerms attributes) others
    rw [← props] at slot
    exact slot

/-- Behind the class name that an attribute respells there is another one. -/
theorem oneClassSlot_objectOf_iff_respelled :
    ((objectOf [{ name := "class-name", value := .source "'a'" },
        { name := "class", value := .source "'b'" }]).run {}).1 =
      { props := [("className", .source "'a'"), ("className", .classes [.static "b"])] } ∧
    ¬ ObjectLiteral.OneClassSlot
      { props := [("className", .source "'a'"), ("className", .classes [.static "b"])] } := by
  refine ⟨by decide +kernel, ?_⟩
  intro slot
  have count := slot.atMostOne
  revert count
  decide

end Attributes

end Template
