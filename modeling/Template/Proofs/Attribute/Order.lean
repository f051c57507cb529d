import Mathlib.Data.List.Basic
import Template.Proofs.Attribute.Object

/-!
# What becomes of each attribute

Compiling attributes neither reorders nor invents anything.  Which attribute has a property
of its own, and which adds to the class name, depends on the attribute alone and not on its
neighbours, so an object can be read off attribute by attribute, and a list of attributes may
be compiled in two halves (`objectOf_exact`).  Of the helpers only the one that joins classes
is noted, and only for a term that has to be joined.
-/

namespace Template

/-! ## Attributes one by one -/

namespace AttributeKey

/-- The key of an attribute that is no class attribute. -/
def normalized (name : String) : String :=
  if name = "for" then "htmlFor"
  else if "data-".toList <+: name.toList ∨ "aria-".toList <+: name.toList then name
  else raiseHyphens name

theorem raiseHyphens_of_notMem {name : String} (noHyphen : '-' ∉ name.toList) :
    raiseHyphens name = name := by
  have kept := raiseFrom_append noHyphen []
  rw [List.append_nil] at kept
  rw [raiseHyphens, kept, raiseFrom, List.append_nil, String.ofList_toList]

theorem normalized_of_isData {name : String} (isData : "data-".toList <+: name.toList) :
    normalized name = name := by
  have notFor : name ≠ "for" := by
    rintro rfl
    exact absurd isData (by decide)
  rw [normalized, if_neg notFor, if_pos (.inl isData)]

theorem normalized_of_data {name key : String} (found : ofName name = .data key) :
    normalized name = key := by
  obtain ⟨rfl, isData⟩ := ofName_eq_data found
  exact normalized_of_isData isData

theorem normalized_of_plain {name key : String} (found : ofName name = .plain key) :
    normalized name = key ∧ ¬ "data-".toList <+: name.toList := by
  simp only [ofName, Bool.or_eq_true, beq_iff_eq, List.isPrefixOf_iff_prefix,
    List.contains_iff_mem] at found
  split at found
  · cases found
  split at found
  next isFor =>
    cases found
    subst isFor
    exact ⟨by decide, by decide⟩
  next notFor =>
  split at found
  · cases found
  next notData =>
  refine ⟨?_, notData⟩
  rw [normalized, if_neg notFor]
  split at found
  next isAria =>
    cases found
    exact if_pos (.inr isAria)
  next notAria =>
  rw [if_neg (not_or.mpr ⟨notData, notAria⟩)]
  split at found
  · cases found
    rfl
  next noHyphen =>
    cases found
    exact raiseHyphens_of_notMem noHyphen

end AttributeKey

namespace Attribute

/-- A class attribute goes by one of two names. -/
def IsClass (given : Attribute) : Prop :=
  given.name = "class" ∨ given.name = "className"

/-- A `data-` attribute is left out if its value is spelled in one of these ways. -/
def nullSpellings : List String := ["null", "undefined", "\"null\"", "'null'"]

/-- An attribute that leaves nothing behind. -/
def IsOmitted (given : Attribute) : Prop :=
  "data-".toList <+: given.name.toList ∧ Text.trim given.value.text ∈ nullSpellings

instance (given : Attribute) : Decidable given.IsClass :=
  inferInstanceAs (Decidable (_ ∨ _))

instance (given : Attribute) : Decidable given.IsOmitted :=
  inferInstanceAs (Decidable (_ ∧ _))

/-- The property of an attribute: its source under its key. -/
def property (given : Attribute) : String × PropertyValue :=
  (AttributeKey.normalized given.name, .source given.value.text)

end Attribute

namespace Attributes

theorem isNullSource_iff {source : String} :
    isNullSource source = true ↔ Text.trim source ∈ Attribute.nullSpellings := by
  simp [isNullSource, Attribute.nullSpellings, or_assoc]

/-- An attribute has a property of its own unless it is a class attribute or left out. -/
theorem property?_eq (given : Attribute) :
    property? given =
      if ¬ given.IsClass ∧ ¬ given.IsOmitted then some given.property else none := by
  unfold property?
  cases key : AttributeKey.ofName given.name with
  | classes =>
      have isClass : given.IsClass := AttributeKey.ofName_eq_classes_iff.mp key
      rw [if_neg (fun kept => kept.1 isClass)]
  | data name =>
      have isData := (AttributeKey.ofName_eq_data key).2
      have noClass : ¬ given.IsClass := by
        rw [Attribute.IsClass, ← AttributeKey.ofName_eq_classes_iff, key]
        exact AttributeKey.noConfusion
      have omitted : given.IsOmitted ↔ isNullSource given.value.text = true := by
        rw [isNullSource_iff, Attribute.IsOmitted, and_iff_right isData]
      simp only [noClass, omitted, not_false_eq_true, true_and, ite_not, Attribute.property,
        AttributeKey.normalized_of_data key]
  | plain name =>
      obtain ⟨normalized, noData⟩ := AttributeKey.normalized_of_plain key
      have noClass : ¬ given.IsClass := by
        rw [Attribute.IsClass, ← AttributeKey.ofName_eq_classes_iff, key]
        exact AttributeKey.noConfusion
      have kept : ¬ given.IsOmitted := fun omitted => noData omitted.1
      rw [if_pos ⟨noClass, kept⟩, Attribute.property, normalized]

theorem filterMap_property? (attributes : List Attribute) :
    attributes.filterMap property? =
      (attributes.filter fun given => ¬ given.IsClass ∧ ¬ given.IsOmitted).map
        Attribute.property := by
  induction attributes with
  | nil => rfl
  | cons given rest inductionHypothesis =>
      rw [List.filterMap_cons, property?_eq, List.filter_cons]
      by_cases kept : ¬ given.IsClass ∧ ¬ given.IsOmitted
      · simp [kept, inductionHypothesis]
      · simp only [kept, if_false, decide_false, Bool.false_eq_true, inductionHypothesis]

theorem classTerms_append (first second : List Attribute) :
    classTerms (first ++ second) = classTerms first ++ classTerms second := by
  rw [classTerms, classElements, List.flatMap_append, List.flatMap_append]
  rfl

theorem classTerms_eq_flatMap (attributes : List Attribute) :
    classTerms attributes =
      (attributes.filter fun given => given.IsClass).flatMap fun given => classTerms [given] := by
  induction attributes with
  | nil => rfl
  | cons given rest inductionHypothesis =>
      rw [← List.singleton_append, classTerms_append, inductionHypothesis, List.filter_append,
        List.flatMap_append]
      by_cases isClass : given.IsClass
      · simp [isClass]
      · have nothing : classTerms [given] = [] := by
          have other : ¬ (given.name = "class" ∨ given.name = "className") := isClass
          simp [classTerms, classElements, other]
        simp [nothing]

end Attributes

/-! ## Objects -/

namespace ObjectLiteral

/-- The key and the source of a property that has a source for its value. -/
def sourceOf? (property : String × PropertyValue) : Option (String × String) :=
  match property.2 with
  | .source code => some (property.1, code)
  | .classes _ => none

/-- The properties with a source for their value, in order. -/
def sources (object : ObjectLiteral) : List (String × String) :=
  object.props.filterMap sourceOf?

/-- The terms of a property, if it holds a class name. -/
def termsOf (property : String × PropertyValue) : List ClassTerm :=
  match property.2 with
  | .source _ => []
  | .classes terms => terms

/-- The terms of all properties that hold class names, in order. -/
def terms (object : ObjectLiteral) : List ClassTerm :=
  object.props.flatMap termsOf

theorem uses_eq_flatMap_terms (object : ObjectLiteral) :
    object.uses = object.terms.flatMap ClassTerm.uses := by
  rw [uses, terms, List.flatMap_assoc]
  refine List.flatMap_congr fun property _ => ?_
  rw [termsOf]
  cases property.2 with
  | source code => rfl
  | classes terms => rfl

/-- An object calls the class helper exactly if a term of a class name is dynamic. -/
theorem join_mem_uses_iff {object : ObjectLiteral} :
    .join ∈ object.uses ↔ ∃ source, .dynamic source ∈ object.terms := by
  rw [uses_eq_flatMap_terms, List.mem_flatMap]
  constructor
  · rintro ⟨term, membership, isUsed⟩
    cases term with
    | static name => cases isUsed
    | dynamic source => exact ⟨source, membership⟩
  · rintro ⟨source, membership⟩
    exact ⟨.dynamic source, membership, List.mem_singleton_self _⟩

end ObjectLiteral

namespace Preamble

theorem contains_need {preamble : Preamble} {helper other : Helper} :
    (preamble.need helper).contains other = true ↔
      preamble.contains other = true ∨ other = helper := by
  simp only [contains, need, appendNew, List.contains_iff_mem]
  split
  next isNoted =>
    constructor
    · exact .inl
    · rintro (noted | rfl)
      · exact noted
      · exact isNoted
  next => simp

theorem contains_needAll {preamble : Preamble} {helpers : List Helper} {other : Helper} :
    (preamble.needAll helpers).contains other = true ↔
      preamble.contains other = true ∨ other ∈ helpers := by
  induction helpers generalizing preamble with
  | nil => simp
  | cons helper rest inductionHypothesis =>
      have step : preamble.needAll (helper :: rest) = (preamble.need helper).needAll rest := rfl
      rw [step, inductionHypothesis, contains_need, List.mem_cons, or_assoc]

end Preamble

namespace Attributes

variable (attributes : List Attribute) (preamble : Preamble)

theorem sources_objectOf :
    ((objectOf attributes).run preamble).1.sources =
      (attributes.filter fun given => ¬ given.IsClass ∧ ¬ given.IsOmitted).map fun given =>
        (AttributeKey.normalized given.name, given.value.text) := by
  have noSource (terms : List ClassTerm) :
      (classEntry terms).filterMap ObjectLiteral.sourceOf? = [] := by
    cases terms with
    | nil => rfl
    | cons term rest => rfl
  have every : ObjectLiteral.sourceOf? ∘ Attribute.property =
      some ∘ fun given => (AttributeKey.normalized given.name, given.value.text) := rfl
  rw [ObjectLiteral.sources, props_objectOf, List.filterMap_append, noSource, List.append_nil,
    filterMap_property?, List.filterMap_map, every, List.filterMap_eq_map]

theorem terms_objectOf :
    ((objectOf attributes).run preamble).1.terms = classTerms attributes := by
  have noTerms : (attributes.filterMap property?).flatMap ObjectLiteral.termsOf = [] := by
    rw [List.flatMap_eq_nil_iff]
    intro property membership
    obtain ⟨given, -, found⟩ := List.mem_filterMap.mp membership
    rw [ObjectLiteral.termsOf, value_of_property? found]
  rw [ObjectLiteral.terms, props_objectOf, List.flatMap_append, noTerms, List.nil_append]
  cases classTerms attributes with
  | nil => rfl
  | cons term rest => exact List.append_nil _

theorem contains_join_objectOf :
    ((objectOf attributes).run preamble).2.contains .join = true ↔
      preamble.contains .join = true ∨
        ∃ source, .dynamic source ∈ ((objectOf attributes).run preamble).1.terms := by
  obtain ⟨object, objectEq⟩ := objectOf_eq_noting attributes
  have noted : (objectOf attributes).run preamble = (object, preamble.needAll object.uses) := by
    rw [objectEq]
    rfl
  rw [noted, Preamble.contains_needAll, ObjectLiteral.join_mem_uses_iff]

/-- The object of attributes has one property for each attribute that is neither a class
attribute nor left out, in order and with its source unchanged, and behind these one for the
class name, if it has terms.  The terms are those that the class attributes give one by one,
the class helper is noted exactly for a dynamic term, and both halves of a list may be compiled
by themselves. -/
theorem objectOf_exact :
    (((objectOf attributes).run preamble).1.props =
      (attributes.filter fun given => ¬ given.IsClass ∧ ¬ given.IsOmitted).map
          (fun given => (AttributeKey.normalized given.name, .source given.value.text)) ++
        classEntry ((objectOf attributes).run preamble).1.terms) ∧
    (∀ other : Preamble, ((objectOf attributes).run preamble).1.terms =
      (attributes.filter fun given => given.IsClass).flatMap fun given =>
        ((objectOf [given]).run other).1.terms) ∧
    (((objectOf attributes).run preamble).2.contains .join = true ↔
      preamble.contains .join = true ∨
        ∃ source, .dynamic source ∈ ((objectOf attributes).run preamble).1.terms) ∧
    ∀ (count : Nat) (one two : Preamble),
      ((objectOf attributes).run preamble).1.sources =
          ((objectOf (attributes.take count)).run one).1.sources ++
            ((objectOf (attributes.drop count)).run two).1.sources ∧
        ((objectOf attributes).run preamble).1.terms =
          ((objectOf (attributes.take count)).run one).1.terms ++
            ((objectOf (attributes.drop count)).run two).1.terms := by
  refine ⟨?_, ?_, contains_join_objectOf attributes preamble, ?_⟩
  · rw [terms_objectOf, props_objectOf, filterMap_property?]
    rfl
  · intro other
    simp only [terms_objectOf]
    exact classTerms_eq_flatMap attributes
  · intro count one two
    constructor
    · rw [sources_objectOf, sources_objectOf, sources_objectOf, ← List.map_append,
        ← List.filter_append, List.take_append_drop]
    · rw [terms_objectOf, terms_objectOf, terms_objectOf, ← classTerms_append,
        List.take_append_drop]

end Attributes

end Template
